import AgentPay.ClaimHeader
import AgentPay.ControlRequests
import AgentPay.PayoutAuthority
import AgentPay.ReconciledSessions
import AgentPay.SettlementSuccess

/-!
# Claims that authenticate a plan

`plan_for_session` takes a claim at exactly the mark of its session, so that no path
accepts it as payment. On the gateway that holds for good, because marks only grow. On
chain the claim is compared with `cumulative_settled`, which follows the mark only when
somebody settles: until then a claim at the mark is what a settlement pays out. The claim
stays worthless exactly where the chain would refuse it when the plan is made.

The handler reads the session, the agent and the spend one after the other. What
`plan_options` computes for the response is left out; it refuses nothing. The gateway and
the Ed25519 precompile of the chain check signatures by one scheme.
-/
namespace AgentPay.PlanningClaims
open SolanaRuntime EscrowState ClaimMessage EscrowProgram EscrowEffects EscrowInvariant
open GatewayClaims SessionStore ControlPlane SettlementRequests SettlementAgreement
open SettlementSuccess ReconciledSessions PayoutAuthority
open EvidenceLog (zeroHash)
open PolicyRules (Text Spend normaliseResource)
open ControlRequests (saturatingSub)
open ClaimHeader (ClaimWire Parsers)
open RequestPool Fallible Runs

inductive PlanDenial where
  | malformedRequest
  | malformedClaim
  | planClaimMismatch
  | agentNotFound
  | denied (code : ReasonCode)
deriving DecidableEq

structure SessionPlanRequest where
  session : Text
  resource : Text
  calls : UInt32
  claim : ClaimWire

/-- The response without the options, which are those of `PurchasePlans` for the spend that was
read here. -/
structure SessionPlan where
  session : Pubkey
  resource : Text
  requestedCalls : UInt32
  spent : UInt64
  remaining : Option UInt64
  escrowRemaining : UInt64
deriving DecidableEq

/-- What the handler reads, each at its own time. -/
structure PlanReads where
  now : Int64
  store : Database
  control : Tables
  spend : Database

def SessionPlanRequest.respond (req : SessionPlanRequest) (record : SessionRecord)
    (agent : AgentRecord) (spend : Spend) (session : Pubkey) : SessionPlan where
  session := session
  resource := normaliseResource req.resource
  requestedCalls := req.calls
  spent := spend.spent
  remaining := agent.policy.map fun policy => saturatingSub policy.maxTotal spend.spent
  escrowRemaining := saturatingSub record.depositedTotal record.cumulativeAccepted

def verifyClaimSignature (verify : Scheme) (agent : Pubkey) (claim : Claim)
    (signature : Signature) : Bool :=
  verify agent.toList claim.signingBytes signature.toList

/-- `plan_for_session` up to the options. Each table is read once, and the reads are given as
what they return: what happens to a table between two of them is not restricted. -/
def planForSession (p : Parsers) (verify : Scheme) (reads : PlanReads)
    (req : SessionPlanRequest) : Except PlanDenial SessionPlan := do
  require (req.calls ≠ 0) .malformedRequest
  let session ← okOr (p.parsePubkey req.session) .malformedRequest
  let (claim, signature) ← (req.claim.decode p).mapError fun _ => .malformedClaim
  require (claim.session = session) .malformedRequest
  require (claim.isExpired reads.now = false) (.denied .claimExpired)
  let record ← (getRecord reads.store session).mapError fun e => .denied (storeDenial e)
  require (record.isSettled = false) (.denied .sessionSettled)
  require (reads.now ≤ sessionLimit record.expiresAt) (.denied .sessionExpired)
  require (claim.cumulativeAmount = record.cumulativeAccepted ∧
    claim.nonce = record.lastNonce.getD 0) .planClaimMismatch
  require (verifyClaimSignature verify record.agent claim signature = true)
    (.denied .invalidSignature)
  let found ← (getAgentByPubkey reads.control record.agent).mapError
    fun _ => .denied .controlPlaneUnavailable
  let agent ← okOr found .agentNotFound
  let spend ← (agentSpend reads.spend agent.agentPubkey).mapError
    fun _ => .denied .controlPlaneUnavailable
  pure (req.respond record agent spend session)

/-- What a claim that authenticated a plan satisfied. -/
structure Planned (verify : Scheme) (reads : PlanReads) (claim : Claim) (signature : Signature)
    (record : SessionRecord) : Prop where
  unexpired : claim.isExpired reads.now = false
  stored : getRecord reads.store claim.session = .ok record
  unsettled : record.isSettled = false
  inTime : reads.now ≤ sessionLimit record.expiresAt
  atMark : claim.cumulativeAmount = record.cumulativeAccepted
  lastNonce : claim.nonce = record.lastNonce.getD 0
  signed : verifyClaimSignature verify record.agent claim signature = true

section Planning
variable {p : Parsers} {verify : Scheme} {reads : PlanReads} {req : SessionPlanRequest}
variable {plan : SessionPlan} {claim : Claim} {signature : Signature}

/-- A plan is given exactly to a claim in order of an agent that is registered. -/
theorem planForSession_eq_ok (hclaim : req.claim.decode p = .ok (claim, signature)) :
    planForSession p verify reads req = .ok plan ↔
      req.calls ≠ 0 ∧ p.parsePubkey req.session = some claim.session ∧
        ∃ record agent spend, Planned verify reads claim signature record ∧
          getAgentByPubkey reads.control record.agent = .ok (some agent) ∧
          agentSpend reads.spend agent.agentPubkey = .ok spend ∧
          req.respond record agent spend claim.session = plan := by
  simp only [planForSession, hclaim, bind_eq_ok, okOr_eq_ok, require_eq_ok, mapError_eq_ok,
    pure_eq_ok, Except.ok.injEq, Prod.exists, Prod.mk.injEq, exists_const]
  constructor
  · rintro ⟨hcalls, session, hsession, _, _, ⟨rfl, rfl⟩, rfl, hexp, record, hget, hset, htime,
      ⟨hmark, hnonce⟩, hsigned, found, hagent, agent, rfl, spend, hspend, hplan⟩
    exact ⟨hcalls, hsession, record, agent, spend,
      ⟨hexp, hget, hset, htime, hmark, hnonce, hsigned⟩, hagent, hspend, hplan⟩
  · rintro ⟨hcalls, hsession, record, agent, spend, h, hagent, hspend, hplan⟩
    exact ⟨hcalls, _, hsession, _, _, ⟨rfl, rfl⟩, rfl, h.unexpired, record, h.stored, h.unsettled,
      h.inTime, ⟨h.atMark, h.lastNonce⟩, h.signed, _, hagent, agent, rfl, spend, hspend, hplan⟩

end Planning

/-! ### What the chain would pay -/

/-- The amount and time checks of the program pass. -/
def Spendable (x : Session) (now : Int64) (claim : Claim) : Prop :=
  ∃ root delta, settleChecks x now (claim.settleArgs root) = .ok () ∧
    settleAmounts x (claim.settleArgs root) = .ok delta

/-- The signature instruction the program would look at holds this signature. -/
def Presents (sysvar : InstructionsSysvar) (signature : Signature) : Prop :=
  ∀ ix offset, sysvar.instructions[sysvar.currentIndex - 1]? = some ix →
    readU16 ix.data 2 = .ok offset → slice ix.data offset (offset + 64) = .ok signature.toList

/-- A transaction that settles the claim with its signature, with any root. -/
structure Submits (s : Shared) (claim : Claim) (signature : Signature) (tx : Transaction)
    (sysvar : InstructionsSysvar) (a : SettleAccounts) (root : Hash) : Prop where
  call : tx.call = .settleSession s.clock sysvar a (claim.settleArgs root)
  wellFormed : tx.WellFormed
  session : a.session = claim.session
  presents : Presents sysvar signature

/-- The chain would refuse the claim. Its session is there, and the signature is not its
agent's or the checks fail; or it is not there, and the claim is for nothing or no agent
with this signature can open it. -/
structure Barred (verify : Scheme) (rt : Runtime) (s : Shared) (claim : Claim)
    (signature : Signature) : Prop where
  opened : ∀ x, sessionAt rt s.ledger claim.session = some x →
    verifyClaimSignature verify x.agent claim signature = true → ¬Spendable x s.clock claim
  unopened : sessionAt rt s.ledger claim.session = none → claim.cumulativeAmount = 0 ∨
    ∀ agent provider sessionId bump,
      rt.derive (sessionSeeds agent provider sessionId) bump = some claim.session →
      verifyClaimSignature verify agent claim signature = false

/-- No path takes the claim: the gateway admits it with no signature, and no settlement of
it with its own moves a token, whoever submits it. -/
structure NeverPaid (verify : Scheme) (rt : Runtime) (s : Shared) (claim : Claim)
    (signature : Signature) : Prop where
  refused : ∀ other db acc,
    admitClaim rt.sha256 s.db claim other s.clock ≠ .ok (db, .ok acc)
  unmoved : ∀ tx sysvar a root, Submits s claim signature tx sysvar a root →
    ∀ k, balance (transact verify rt s.ledger tx) k = balance s.ledger k

/-- The instruction that is built for a claim presents its signature. -/
theorem presents_built {agent : Pubkey} {signature : Signature} {message : List UInt8}
    {rest : List Instruction} :
    Presents ⟨buildEd25519Instruction agent signature message :: rest, 1⟩ signature := by
  intro ix offset hix hoffset
  have hsame : buildEd25519Instruction agent signature message = ix := Option.some.inj hix
  subst hsame
  have hread : readU16 (buildEd25519Instruction agent signature message).data 2 = .ok 48 := rfl
  have hat : offset = 48 := Except.ok.inj (hoffset.symm.trans hread)
  subst hat
  have hslice := @slice_append (ed25519Header message.length ++ agent.toList) signature.toList
    message 48 (48 + 64) (by simp [length_ed25519Header]) (by simp [length_ed25519Header])
  rw [List.append_assoc] at hslice
  exact hslice

section Chain
variable {rt : Runtime} {L L' : EscrowLedger} {x x' : Session} {now now' : Int64} {claim : Claim}
variable {sysvar : InstructionsSysvar} {a : SettleAccounts} {root : Hash} {s : Shared}
variable {verify : Scheme} {signature : Signature} {tx : Transaction}

theorem spendable_iff : Spendable x now claim ↔
    (x.expiresAt.toInt + 30 < 2 ^ 63 ∧ now.toInt ≤ x.expiresAt.toInt + 30) ∧
    (claim.expiresAt.toInt + 30 < 2 ^ 63 ∧ now.toInt ≤ claim.expiresAt.toInt + 30) ∧
    x.cumulativeSettled.toNat < claim.cumulativeAmount.toNat ∧
    claim.cumulativeAmount.toNat + x.refundedTotal.toNat ≤ x.depositedTotal.toNat := by
  simp only [Spendable, settleChecks_eq_ok, settleAmounts_eq_ok, Claim.settleArgs]
  constructor
  · rintro ⟨-, delta, ⟨h₁, h₂, h₃, -⟩, -, h₅⟩
    exact ⟨h₁, h₂, h₃, h₅⟩
  · rintro ⟨h₁, h₂, h₃, h₅⟩
    have hlt := claim.cumulativeAmount.toNat_lt
    obtain ⟨delta, hd⟩ := UInt64.exists_toNat_eq
      (n := claim.cumulativeAmount.toNat - x.cumulativeSettled.toNat) (by omega)
    exact ⟨default, delta, ⟨h₁, h₂, h₃, by omega⟩, by omega, h₅⟩

/-- What the chain would pay later it would pay now: a session's terms are fixed, its
totals and the clock only rise. -/
theorem Spendable.earlier (h : Spendable x' now' claim) (he : Evolves x x')
    (hnow : now.toInt ≤ now'.toInt) : Spendable x now claim := by
  have hexp : x'.expiresAt = x.expiresAt := by rw [he.terms]
  have hdep : x'.depositedTotal = x.depositedTotal := by rw [he.terms]
  have hsettled := he.settledLe
  have hrefunded := he.refundedLe
  rw [spendable_iff, hexp, hdep] at h
  rw [spendable_iff]
  omega

theorem Submits.transact_eq (h : Submits s claim signature tx sysvar a root)
    (hacc : tx.accepted verify = true) : transact verify rt s.ledger tx =
      apply rt s.ledger (.settleSession s.clock sysvar a (claim.settleArgs root)) := by
  rw [transact, if_pos hacc, h.call]

/-- A settlement that goes through carries the signature of the session's agent. -/
theorem Submits.signed (h : Submits s claim signature tx sysvar a root)
    (hacc : tx.accepted verify = true) (hsigned : verifyEd25519Claim sysvar x.agent
      (buildClaimMessage a.session claim.cumulativeAmount claim.nonce claim.expiresAt) = .ok ()) :
    verifyClaimSignature verify x.agent claim signature = true := by
  rcases verifyEd25519Claim_introspected hsigned with ⟨ix, offset, hix, hi⟩
  have haccepts := Transaction.accepts hacc (h.wellFormed _ _ _ _ h.call) hi.mem hi.program
  rcases hi.verified haccepts with ⟨bytes, hslice, hverify⟩
  have hsame : bytes = signature.toList :=
    Except.ok.inj (hslice.symm.trans (h.presents ix offset hix hi.signatureAt.1))
  rw [hsame, h.session] at hverify
  exact hverify

/-- What a settlement that changes the ledger says of the session. -/
theorem Submits.spendable (h : Submits s claim signature tx sysvar a root)
    (hmoved : transact verify rt s.ledger tx ≠ s.ledger) :
    ∃ x, sessionAt rt s.ledger claim.session = some x ∧
      verifyClaimSignature verify x.agent claim signature = true ∧ Spendable x s.clock claim := by
  have hacc : tx.accepted verify = true := by
    by_contra hno
    exact hmoved (if_neg hno)
  rw [h.transact_eq hacc] at hmoved
  rcases ok_or_error (execute rt s.ledger (.settleSession s.clock sysvar a
    (claim.settleArgs root))) with ⟨⟨L', ev⟩, hok⟩ | ⟨e, herr⟩
  · rcases settleSession_effect hok with ⟨x, delta, hset⟩
    have hloaded := hset.loaded
    rw [h.session] at hloaded
    exact ⟨x, hloaded, h.signed hacc hset.signed, root, delta, hset.checks, hset.amounts⟩
  · simp only [apply, herr, ne_eq, not_true_eq_false] at hmoved

/-- A settlement that succeeds takes tokens out of the vault. -/
theorem vault_debited {ev : EscrowState.Event}
    (h : settleSession rt L now sysvar a (claim.settleArgs root) = .ok (L', ev)) :
    balance L' a.vault < balance L a.vault := by
  rcases settleSession_effect h with ⟨x, delta, hset⟩
  have hdelta := settleAmounts_eq_ok.mp hset.amounts
  have hinc := (settleChecks_eq_ok.mp hset.checks).2.2.1
  rcases hset.vaultDebited with ⟨t, ht, -, -, hle, -, ht'⟩
  rw [balance_of_token ht, balance_of_token ht', TokenAccount.debit]
  simp only
  omega

/-- A claim the chain would pay, submitted in order, is not worthless. -/
theorem paid_of_unbarred (hL : Reached rt s.ledger) (h : Submits s claim signature tx sysvar a root)
    (hacc : tx.accepted verify = true)
    (hready : SettleReady rt s.ledger s.clock sysvar a (claim.settleArgs root) x)
    (hfunded : claim.cumulativeAmount.toNat ≤ x.cumulativeSettled.toNat + balance s.ledger x.vault)
    (hfree : x.isSettled = true ∨ (s.ledger a.settlementRecord).lamports = 0)
    (hb : ¬Barred verify rt s claim signature) : ¬NeverPaid verify rt s claim signature := by
  intro hnever
  have hx : sessionAt rt s.ledger claim.session = some x := by
    rw [← h.session]
    exact hready.loaded
  have hspend : Spendable x s.clock claim := by
    by_contra hno
    refine hb ⟨?_, ?_⟩
    · intro y hy _
      rw [hx] at hy
      rwa [← Option.some.inj hy]
    · intro hnone
      rw [hx] at hnone
      cases hnone
  rw [spendable_iff] at hspend
  rcases hspend with ⟨⟨h₁, -⟩, ⟨h₂, -⟩, -, h₄⟩
  rcases (settle_succeeds_iff_receipt_free hL hready h₄).mpr ⟨h₁, h₂, hfunded, hfree⟩ with
    ⟨⟨L', ev⟩, hok⟩
  have hafter : transact verify rt s.ledger tx = L' := by
    rw [h.transact_eq hacc]
    simp only [apply, execute, hok]
  have hdebited := vault_debited hok
  have hsame := hnever.unmoved tx sysvar a root h a.vault
  rw [hafter] at hsame
  omega

end Chain

/-! ### From the plan on -/

section Later
variable {cfg : Config} {g₀ g g' : Desk cfg} {l : DeskLabel cfg} {s' : Shared} {claim : Claim}
variable {h h' : History (Desk cfg) (DeskLabel cfg)}

theorem clock_effect (h : Effect cfg g l s') : g.shared.clock.toInt ≤ s'.clock.toInt := by
  cases h with
  | quiet _ _ hclock => exact hclock
  | _ => exact le_rfl

theorem clock_run (hr : Run (DeskStep cfg) g h g') :
    g.shared.clock.toInt ≤ g'.shared.clock.toInt :=
  hr.invariant_all (I := fun x => g.shared.clock.toInt ≤ x.shared.clock.toInt)
    (fun _ _ _ hle hs => hle.trans (clock_effect (desk_effect hs))) le_rfl

theorem grows_run (hr : Run (DeskStep cfg) g h g') : Grows g.shared.db g'.shared.db :=
  hr.invariant_all (I := fun x => Grows g.shared.db x.shared.db)
    (fun _ _ _ hg hs =>
      hg.trans (@follows_effect _ _ _ _ systemProgramId (desk_effect hs)).grows) (.refl _)

/-- The system after a call of the program. -/
def called (g : Desk cfg) (c : Call) : Desk cfg where
  shared := { g.shared with ledger := apply cfg.rt g.shared.ledger c }
  requests := g.requests

theorem called_ledger {c : Call} :
    (called g c).shared.ledger = apply cfg.rt g.shared.ledger c := rfl

theorem deskStep_called {signer : Keypair cfg.rt} {c : Call} (hsig : c.signer = signer.pubkey)
    (hclock : callClock c = g.shared.clock) :
    DeskStep cfg g (.outside (.call signer c)) (called g c) := by
  cases g
  exact .outside (.call hsig hclock)

/-- A claim at most at the mark is never admitted again. -/
theorem refused_of_le_mark (hr : Run (DeskStep cfg) g h g')
    (hmark : (claim.cumulativeAmount.toNat : ℤ) ≤ g.shared.db.amount claim.session)
    {signature : Signature} {db : Database} {acc : ClaimAccepted} :
    admitClaim cfg.rt.sha256 g'.shared.db claim signature g'.shared.clock ≠ .ok (db, .ok acc) := by
  intro hok
  cases admitClaim_effect hok with
  | accepted ha =>
    have hgrown := (grows_run hr).amounts claim.session
    have hpositive := ha.positive
    have hdelta := ha.delta
    omega

/-- What the chain would refuse it refuses from then on. -/
theorem unmoved_run {verify : Scheme} {signature : Signature} (hr : Run (DeskStep cfg) g₀ h g)
    (h₀ : Initial cfg g₀) (hr' : Run (DeskStep cfg) g h' g')
    (hb : Barred verify cfg.rt g.shared claim signature) {tx : Transaction}
    {sysvar : InstructionsSysvar} {a : SettleAccounts} {root : Hash}
    (hs : Submits g'.shared claim signature tx sysvar a root) :
    transact verify cfg.rt g'.shared.ledger tx = g'.shared.ledger := by
  by_contra hmoved
  rcases hs.spendable hmoved with ⟨x', hx', hsigned, hspend⟩
  rcases hx : sessionAt cfg.rt g.shared.ledger claim.session with _ | x
  · rcases hb.unopened hx with hzero | hno
    · have hinc := (spendable_iff.mp hspend).2.2.1
      rw [hzero] at hinc
      exact absurd hinc (Nat.not_lt_zero _)
    · rcases ledger_run (hr.append hr') with ⟨hist, hrun⟩
      have hsound := (sound_run (sound_genesis h₀.ledger) hrun).session _ _ hx'
      rw [hno _ _ _ _ hsound.derived] at hsigned
      cases hsigned
  · rcases ledger_run hr' with ⟨hist, hrun⟩
    rcases evolves_run hrun hx with ⟨y, hy, he⟩
    have hsame : y = x' := Option.some.inj (hy.symm.trans hx')
    subst hsame
    have hagent : y.agent = x.agent := by rw [he.terms]
    rw [hagent] at hsigned
    exact hb.opened x hx hsigned (hspend.earlier he (clock_run hr'))

end Later

/-- A claim that authenticated a plan is taken by no path in any later state when the chain
would have refused it at the plan. Otherwise any settlement of it that is in order at that
time is paid. -/
theorem planned_claim_never_paid {cfg : Config} {g₀ g : Desk cfg}
    {h : History (Desk cfg) (DeskLabel cfg)} {p : Parsers} {verify : Scheme} {reads : PlanReads}
    {req : SessionPlanRequest} {claim : Claim} {signature : Signature} {plan : SessionPlan}
    (hr : Run (DeskStep cfg) g₀ h g) (h₀ : Initial cfg g₀) (hstore : reads.store = g.shared.db)
    (hclaim : req.claim.decode p = .ok (claim, signature))
    (hok : planForSession p verify reads req = .ok plan) :
    (Barred verify cfg.rt g.shared claim signature →
      ∀ h' g', Run (DeskStep cfg) g h' g' → NeverPaid verify cfg.rt g'.shared claim signature) ∧
    ∀ tx sysvar a root x, Submits g.shared claim signature tx sysvar a root →
      tx.accepted verify = true →
      SettleReady cfg.rt g.shared.ledger g.shared.clock sysvar a (claim.settleArgs root) x →
      claim.cumulativeAmount.toNat ≤ x.cumulativeSettled.toNat + balance g.shared.ledger x.vault →
      (x.isSettled = true ∨ (g.shared.ledger a.settlementRecord).lamports = 0) →
      ¬Barred verify cfg.rt g.shared claim signature →
      ¬NeverPaid verify cfg.rt g.shared claim signature := by
  rcases (planForSession_eq_ok hclaim).mp hok with ⟨-, -, record, -, -, hplanned, -⟩
  have hget := hplanned.stored
  rw [hstore] at hget
  rcases getRecord_loaded hget with ⟨row, -, hload⟩
  have hmark : (claim.cumulativeAmount.toNat : ℤ) ≤ g.shared.db.amount claim.session := by
    rw [hplanned.atMark, hload.amount]
  constructor
  · intro hb h' g' hr'
    refine ⟨fun _ _ _ => refused_of_le_mark hr' hmark, ?_⟩
    intro tx sysvar a root hs k
    rw [unmoved_run hr h₀ hr' hb hs]
  · intro tx sysvar a root x hs hacc hready hfunded hfree hb
    rcases ledger_run hr with ⟨hist, hrun⟩
    exact paid_of_unbarred ⟨_, hist, h₀.ledger, hrun⟩ hs hacc hready hfunded hfree hb

namespace Office
export SettlementAgreement.Office (agent provider authority mint agentToken providerToken sessionId
  session vault record table accounts claim100 signature100)

/-- At the mark of 100 with its nonce, and with an expiry of its own. -/
def planned : Claim := ⟨session, 100, 1, 4500⟩

def signature : Signature := #v[87, 17, 219, 215, 11, 49, 32, 205, 188, 251, 61, 158, 86, 126, 80,
  165, 155, 86, 152, 156, 103, 196, 34, 49, 100, 203, 180, 205, 178, 69, 220, 47, 142, 188, 73, 171,
  112, 214, 139, 227, 17, 188, 140, 123, 229, 255, 97, 81, 103, 7, 131, 200, 179, 33, 231, 35, 176,
  82, 91, 86, 39, 28, 74, 2]

def plannedHash : Hash := #v[39, 133, 254, 113, 143, 62, 234, 246, 251, 240, 134, 62, 169, 51, 189,
  11, 118, 33, 248, 254, 78, 108, 182, 159, 27, 190, 40, 35, 23, 235, 68, 62]

def sha256 (message : List UInt8) : Hash :=
  if message = planned.signingBytes then plannedHash else SettlementAgreement.Office.sha256 message

def runtime : Runtime := { SettlementAgreement.Office.runtime with sha256 := sha256 }

theorem signer_of_not_mem {k : Pubkey} (h : k ∉ table.map Prod.snd) : runtime.Signer k :=
  SettlementAgreement.Office.signer_of_not_mem h

def agentKey : Keypair runtime := ⟨agent, SettlementAgreement.Office.agentKey.signer⟩
def authorityKey : Keypair runtime := ⟨authority, SettlementAgreement.Office.authorityKey.signer⟩
def providerKey : Keypair runtime := ⟨provider, signer_of_not_mem (by decide +kernel)⟩

def config : Config := ⟨runtime, true, true, some authorityKey, none, fun _ _ _ => providerToken⟩

def start : Desk config := ⟨⟨.empty, ledgerOf accounts, 1000⟩, []⟩

theorem start_initial : Initial config start := by
  refine ⟨rfl, genesis_ledgerOf ?_ ?_, rfl⟩
  · decide +kernel
  · have hm : ∀ e ∈ accounts, e.1 ∉ table.map Prod.snd := by decide +kernel
    exact fun e he => signer_of_not_mem (hm e he)

/-- The agent escrows 1000 until 5000, the gateway opens the session, and at 2000 it admits
the claim for 100. -/
def opening : List (DeskLabel config) :=
  [.outside (.admitClaim claim100 signature100), .outside (.tick 2000), .advance 0, .advance 0,
    .arrive ⟨.openSession session ⟨agent, provider, mint, 1000, 5000⟩, .received⟩,
    .outside (.call agentKey (.openSession 1000
      ⟨agent, provider, mint, session, vault, agentToken, tokenProgramId⟩
      ⟨sessionId, 1000, 5000, authority⟩))]

/-- The signature instruction of a claim, then the settlement. -/
def sysvar (claim : Claim) (signature : Signature) : InstructionsSysvar :=
  ⟨[buildEd25519Instruction agent signature claim.signingBytes, ⟨agentpayId, []⟩], 1⟩

def settleAccounts : SettleAccounts :=
  ⟨provider, session, record, vault, providerToken, mint, tokenProgramId⟩

/-- The provider's own settlement of a claim, without the gateway. -/
def collect (claim : Claim) (signature : Signature) : Call :=
  .settleSession 2000 (sysvar claim signature) settleAccounts (claim.settleArgs zeroHash)

def transaction (claim : Claim) (signature : Signature) : Transaction :=
  ⟨(sysvar claim signature).instructions, collect claim signature⟩

def opened : History (Desk config) (DeskLabel config) × Desk config := playDesk config start opening

/-- The provider has settled the admitted claim. -/
def collected : History (Desk config) (DeskLabel config) × Desk config :=
  playDesk config start (.outside (.call providerKey (collect claim100 signature100)) :: opening)

/-- The provider settles the claim of the plan. -/
def spent : Desk config := called opened.2 (collect planned signature)

/-- The scheme on the signatures that occur. -/
def scheme : Scheme := fun key message given =>
  key = agent.toList && (message = claim100.signingBytes && given = signature100.toList ||
    message = planned.signingBytes && given = signature.toList)

def control : Tables := ⟨[⟨['a', '1'], agent, .autonomous, .active, none, none⟩], []⟩

def reads (db : Database) : PlanReads := ⟨2000, db, control, db⟩

def request : SessionPlanRequest :=
  ⟨Base58.encode session.toList, ['/', 'q'], 3, ClaimHeader.wireOf planned signature⟩

def plan : SessionPlan := ⟨session, ['/', 'q'], 3, 100, none, 900⟩

def stored : SessionRecord :=
  ⟨session, agent, provider, mint, 1000, 5000, 100, some 1, some ⟨claim100, signature100⟩, false,
    true⟩

theorem request_claim :
    request.claim.decode ClaimHeader.PlainParsers.parsers = .ok (planned, signature) :=
  ClaimHeader.decode_wireOf ClaimHeader.PlainParsers.standard

/-- Where the record is at the mark of 100, the plan is given. -/
theorem plan_given {db : Database} (hget : getRecord db session = .ok stored)
    (hspend : agentSpend db agent = .ok ⟨100, 1⟩) :
    planForSession ClaimHeader.PlainParsers.parsers scheme (reads db) request =
      .ok plan := by
  have hexp : planned.isExpired 2000 = false := by decide
  have htime : (2000 : Int64) ≤ sessionLimit stored.expiresAt := by decide
  have hplanned : Planned scheme (reads db) planned signature stored :=
    ⟨hexp, hget, rfl, htime, rfl, rfl, by decide +kernel⟩
  have hagent : getAgentByPubkey control agent =
      .ok (some ⟨['a', '1'], agent, .autonomous, .active, none, none⟩) := by decide +kernel
  exact (planForSession_eq_ok request_claim).mpr
    ⟨by decide, ClaimHeader.PlainParsers.standard.pubkey session, stored, _, _, hplanned, hagent,
      hspend, by decide +kernel⟩

end Office

/-- The plan is made after the provider settled 100 on chain. -/
theorem planned_claim_never_paid_collected :
    planForSession ClaimHeader.PlainParsers.parsers Office.scheme
        (Office.reads Office.collected.2.shared.db) Office.request = .ok Office.plan ∧
      ∀ h' g', Run (DeskStep Office.config) Office.collected.2 h' g' →
        NeverPaid Office.scheme Office.runtime g'.shared Office.planned Office.signature := by
  have hrun : Run (DeskStep Office.config) Office.start Office.collected.1 Office.collected.2 :=
    playDesk_run _ _ _
  have hstate : getRecord Office.collected.2.shared.db Office.session = .ok Office.stored ∧
      agentSpend Office.collected.2.shared.db Office.agent = .ok ⟨100, 1⟩ ∧
      (sessionAt Office.runtime Office.collected.2.shared.ledger Office.planned.session).map
        Session.cumulativeSettled = some 100 := by decide +kernel
  rcases hstate with ⟨hget, hspend, hchain⟩
  have hplan := Office.plan_given hget hspend
  have hbarred : Barred Office.scheme Office.runtime Office.collected.2.shared Office.planned
      Office.signature := by
    constructor
    · intro x hx _ hspend
      rw [hx, Option.map_some, Option.some.injEq] at hchain
      have hinc := (spendable_iff.mp hspend).2.2.1
      rw [hchain] at hinc
      exact absurd hinc (by decide)
    · intro hnone
      rw [hnone] at hchain
      cases hchain
  exact ⟨hplan, (planned_claim_never_paid hrun Office.start_initial rfl Office.request_claim
    hplan).1 hbarred⟩

/-- The plan is made while nothing is settled on chain, and the provider collects 100 with
the claim that authenticated it. -/
theorem planned_claim_paid :
    Run (DeskStep Office.config) Office.start Office.opened.1 Office.opened.2 ∧
      Initial Office.config Office.start ∧
      Office.request.claim.decode ClaimHeader.PlainParsers.parsers =
        .ok (Office.planned, Office.signature) ∧
      planForSession ClaimHeader.PlainParsers.parsers Office.scheme
        (Office.reads Office.opened.2.shared.db) Office.request = .ok Office.plan ∧
      DeskStep Office.config Office.opened.2
        (.outside (.call Office.providerKey (Office.collect Office.planned Office.signature)))
          Office.spent ∧
      balance Office.opened.2.shared.ledger Office.vault = 1000 ∧
      balance Office.spent.shared.ledger Office.vault = 900 ∧
      balance Office.spent.shared.ledger Office.providerToken = 100 ∧
      ¬NeverPaid Office.scheme Office.config.rt Office.opened.2.shared Office.planned
        Office.signature := by
  have hstate : getRecord Office.opened.2.shared.db Office.session = .ok Office.stored ∧
      agentSpend Office.opened.2.shared.db Office.agent = .ok ⟨100, 1⟩ ∧
      Office.opened.2.shared.clock = 2000 ∧
      balance Office.opened.2.shared.ledger Office.vault = 1000 ∧
      balance Office.spent.shared.ledger Office.vault = 900 ∧
      balance Office.spent.shared.ledger Office.providerToken = 100 := by decide +kernel
  rcases hstate with ⟨hget, hspend, hclock, hbefore, hafter, hpaid⟩
  have hstep : DeskStep Office.config Office.opened.2
      (.outside (.call Office.providerKey (Office.collect Office.planned Office.signature)))
        Office.spent := deskStep_called rfl hclock.symm
  refine ⟨playDesk_run _ _ _, Office.start_initial, Office.request_claim,
    Office.plan_given hget hspend, hstep, hbefore, hafter, hpaid, ?_⟩
  intro hnever
  have hsubmits : Submits Office.opened.2.shared Office.planned Office.signature
      (Office.transaction Office.planned Office.signature)
      (Office.sysvar Office.planned Office.signature) Office.settleAccounts zeroHash := by
    refine ⟨?_, ?_, rfl, presents_built⟩
    · rw [hclock]
      rfl
    · intro now sysvar a args hcall
      cases hcall
      rfl
  have hacc : (Office.transaction Office.planned Office.signature).accepted Office.scheme =
      true := by
    decide +kernel
  have hsame := hnever.unmoved _ _ _ _ hsubmits Office.vault
  rw [hsubmits.transact_eq hacc, hclock] at hsame
  rw [Office.spent, called_ledger, Office.collect] at hafter
  rw [hafter, hbefore] at hsame
  exact absurd hsame (by decide)

end AgentPay.PlanningClaims
