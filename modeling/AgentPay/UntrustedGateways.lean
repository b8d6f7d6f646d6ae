import AgentPay.ClientPurchases
import AgentPay.PayoutAuthority

/-!
# What a gateway can take that is not trusted

The client against a gateway that may quote any price and answer as it likes, and the
chain, to which it may send any transaction. What stands between the two are the claims the
client has signed: of the agent's signatures, a transaction carries only those on messages
its key was used for. The provider is then paid no more than the client says it has spent
and the largest price of an attempt that bought nothing.

An attempt is one step and the next begins when it is over, so `buy`, `buyMany` and
`buyWhenApproved` are covered with all their retries, but not two calls of one client that
overlap; nor is a client that takes its counters from the gateway, as `resume` does. A quote is
not checked by the SDK, not even for its sign.
-/
namespace AgentPay.UntrustedGateways
open SolanaRuntime EscrowState ClaimMessage EscrowProgram EscrowEffects EscrowInvariant
open EscrowConservation PayoutAuthority GatewayClaims PolicyRules ClaimEncoding ClaimHeader
open ClientPurchases Fallible Runs

/-! ### The client -/

/-- What an attempt meets: any quote, the agent's signer, and whether the paid request is
answered with success. -/
structure Answers where
  quoted : Except Failure ℤ
  sign : Signer
  admits : Bool

/-- The message `encodeClaim` hands to the signer. -/
def handed (k : ClientKeys) (cumulative nonce : ℤ) : List (List UInt8) :=
  match claimMessage ⟨k.sessionBytes, cumulative, nonce, k.expiresAt⟩ with
  | .ok msg => [msg]
  | .error _ => []

/-- An attempt for a price: it goes through when the claim was sent and the answer was a
success. -/
def goesThrough (w : Answers) (c : Client) (price : ℤ) : Bool :=
  match encodeClaim c.keys w.sign (c.cumulative + price) (c.nonce + 1) with
  | .ok _ => w.admits
  | .error _ => false

/-- `buyOnce`, as the client sees it, with what it signed. -/
def buyOnce (w : Answers) (c : Client) : Client × List (List UInt8) :=
  match w.quoted with
  | .error _ => (c, [])
  | .ok price => (
      if goesThrough w c price then
        { c with cumulative := c.cumulative + price, nonce := c.nonce + 1 }
      else c,
      handed c.keys (c.cumulative + price) (c.nonce + 1))

/-- What `plan` signs: a claim at the counters as they are. -/
def planned (c : Client) : List (List UInt8) := handed c.keys c.cumulative c.nonce

/-- The price of an attempt that goes through. -/
def bought (w : Answers) (c : Client) : ℤ :=
  match w.quoted with
  | .error _ => 0
  | .ok price => if goesThrough w c price then price else 0

/-- The price of an attempt that does not. -/
def unserved (w : Answers) (c : Client) : ℤ :=
  match w.quoted with
  | .error _ => 0
  | .ok price => if goesThrough w c price then 0 else price

/-! ### The client and the chain -/

/-- The client, the messages its key was used for, and the chain. -/
structure Exposure where
  client : Client
  signed : List (List UInt8)
  ledger : EscrowLedger

inductive Deal where
  | buy (w : Answers)
  | plan
  | chain (l : TransactionLabel)

/-- Somewhere in its data the transaction has a signature of the key on the message. -/
def Carries (verify : Scheme) (tx : Transaction) (key : Pubkey) (message : List UInt8) : Prop :=
  ∃ ix ∈ tx.instructions, ∃ offset signature, slice ix.data offset (offset + 64) = .ok signature ∧
    verify key.toList message signature = true

/-- The agent's signatures on claims of the session were made by the client. -/
def Unforged (verify : Scheme) (agent : Pubkey) (x : Exposure) : TransactionLabel → Prop
  | .send tx => ∀ claim : Claim, claim.session = x.client.session →
      Carries verify tx agent claim.signingBytes → claim.signingBytes ∈ x.signed
  | .external => True

/-- An attempt is one step, from its quote to its answer, so attempts of one client do not
overlap; the chain moves in between. The counters are those the client was made with. -/
inductive DealStep (verify : Scheme) (rt : Runtime) (agent : Pubkey) :
    Exposure → Deal → Exposure → Prop
  | buy {x : Exposure} (w : Answers) : DealStep verify rt agent x (.buy w)
      ⟨(buyOnce w x.client).1, x.signed ++ (buyOnce w x.client).2, x.ledger⟩
  | plan {x : Exposure} : DealStep verify rt agent x .plan
      { x with signed := x.signed ++ planned x.client }
  | chain {x : Exposure} {l : TransactionLabel} {L : EscrowLedger} :
      TransactionStep verify rt x.ledger l L → Unforged verify agent x l →
      DealStep verify rt agent x (.chain l) { x with ledger := L }

def Positive : Deal → Prop
  | .buy w => ∀ price, w.quoted = .ok price → 0 ≤ price
  | _ => True

/-- The prices of the attempts that went through. -/
def spent : History Exposure Deal → ℤ
  | [] => 0
  | t :: h => spent h + match t.label with
    | .buy w => bought w t.before.client
    | _ => 0

/-- The largest price of an attempt that did not. -/
def atRisk : History Exposure Deal → ℤ
  | [] => 0
  | t :: h => max (atRisk h) <| match t.label with
    | .buy w => unserved w t.before.client
    | _ => 0

def chainOf : History Exposure Deal → History EscrowLedger TransactionLabel
  | [] => []
  | ⟨x, .chain l, y⟩ :: h => ⟨x.ledger, l, y.ledger⟩ :: chainOf h
  | ⟨_, .buy _, _⟩ :: h | ⟨_, .plan, _⟩ :: h => chainOf h

/-! ### What is signed -/

section Signing
variable {w : Answers} {c : Client} {k : ClientKeys} {cumulative nonce price : ℤ} {claim : Claim}

theorem total_of_handed (h : claim.signingBytes ∈ handed k cumulative nonce) :
    (claim.cumulativeAmount.toNat : ℤ) = cumulative := by
  unfold handed at h
  split at h
  · rename_i msg hmsg
    rw [List.mem_singleton] at h
    have hfields := claimMessage_inj (claimMessage_fieldsOf claim) (h ▸ hmsg)
    exact congrArg ClaimFields.cumulativeAmount hfields
  · exact absurd h List.not_mem_nil

theorem buyOnce_keys : (buyOnce w c).1.keys = c.keys := by
  unfold buyOnce
  split
  · rfl
  · dsimp only
    split <;> rfl

theorem buyOnce_cumulative : (buyOnce w c).1.cumulative = c.cumulative + bought w c := by
  unfold buyOnce bought
  split
  · exact (add_zero _).symm
  · dsimp only
    split
    · rfl
    · exact (add_zero _).symm

/-- What an attempt signs is paid for by what it buys or by what it risks. -/
theorem buyOnce_covered (h : claim.signingBytes ∈ (buyOnce w c).2) :
    (claim.cumulativeAmount.toNat : ℤ) = c.cumulative + bought w c + unserved w c := by
  unfold buyOnce at h
  unfold bought unserved
  split at h
  · exact absurd h List.not_mem_nil
  · rw [total_of_handed h]
    split
    · rw [add_zero]
    · rw [add_zero]

theorem bought_nonneg (hw : Positive (.buy w)) : 0 ≤ bought w c := by
  unfold bought
  split
  · exact le_rfl
  · rename_i price hprice
    split
    · exact hw price hprice
    · exact le_rfl

end Signing

/-! ### What the chain pays -/

section Paying
variable {verify : Scheme} {rt : Runtime} {L L' : EscrowLedger} {l : TransactionLabel}
variable {key : Pubkey} {s' : Session}

/-- Where a session's settled amount comes from: it is new, it was there, or the
transaction carries the agent's signature for it. -/
inductive SettledBy (verify : Scheme) (rt : Runtime) (L : EscrowLedger) (l : TransactionLabel)
    (key : Pubkey) (s' : Session) : Prop
  | opened : s'.cumulativeSettled = 0 → SettledBy verify rt L l key s'
  | kept {s : Session} : sessionAt rt L key = some s → s.agent = s'.agent →
      s.cumulativeSettled = s'.cumulativeSettled → SettledBy verify rt L l key s'
  | signed {tx : Transaction} {claim : Claim} : l = .send tx → claim.session = key →
      claim.cumulativeAmount = s'.cumulativeSettled →
      Carries verify tx s'.agent claim.signingBytes → SettledBy verify rt L l key s'

theorem settledBy_same (hs : sessionAt rt L' key = some s')
    (hsame : sessionAt rt L' key = sessionAt rt L key) : SettledBy verify rt L l key s' :=
  .kept (hsame ▸ hs) rfl rfl

/-- A settlement that goes through carries its claim. -/
theorem carries_of_settled {tx : Transaction} {now : Int64} {sysvar : InstructionsSysvar}
    {a : SettleAccounts} {args : SettleArgs} {s : Session} {delta : UInt64}
    (h : Settled rt L L' now sysvar a args s delta) (hacc : tx.accepted verify = true)
    (hsys : sysvar.instructions = tx.instructions) : Carries verify tx s.agent
      (Claim.signingBytes ⟨a.session, args.cumulativeAmount, args.nonce, args.claimExpiresAt⟩) := by
  obtain ⟨ix, offset, -, hi⟩ := verifyEd25519Claim_introspected h.signed
  obtain ⟨signature, hslice, hverify⟩ :=
    hi.verified (Transaction.accepts hacc hsys hi.mem hi.program)
  exact ⟨ix, hsys ▸ hi.mem, offset, signature, hslice, hverify⟩

theorem settledBy_step (hs : TransactionStep verify rt L l L')
    (hs' : sessionAt rt L' key = some s') : SettledBy verify rt L l key s' := by
  cases hs with
  | external hx => exact settledBy_same hs' (External.sessionAt hx key)
  | @send tx hsig hwf =>
    unfold transact at hs'
    split at hs'
    case isFalse => exact settledBy_same hs' rfl
    case isTrue hacc =>
      have ho := step_outcome (Step.call hsig : Step rt L _ _)
      generalize apply rt L tx.call = L₁ at ho hs'
      generalize hcall : tx.call = call at ho
      cases ho with
      | rejected _ => exact settledBy_same hs' rfl
      | @opened _ now a args s _ ho =>
        rw [Opened.sessionAt ho] at hs'
        split at hs'
        · cases hs'
          exact .opened (by rw [ho.opened]; rfl)
        · exact .kept hs' rfl rfl
      | @settled _ now sysvar a args s delta hset =>
        have hold := Settled.sessionAt hset key
        rw [hold] at hs'
        split at hs'
        · rename_i hkey
          cases hs'
          have hcarries := carries_of_settled hset hacc (hwf now sysvar a args hcall)
          exact .signed rfl hkey.symm rfl hcarries
        · exact .kept hs' rfl rfl
      | refunded href =>
        have hold := Refunded.sessionAt href key
        rw [hold] at hs'
        split at hs'
        · rename_i hkey
          cases hs'
          have hloaded := href.loaded
          rw [← hkey] at hloaded
          exact .kept hloaded rfl rfl
        · exact .kept hs' rfl rfl

end Paying

/-! ### Runs -/

section Dealing
variable {verify : Scheme} {rt : Runtime} {agent : Pubkey} {c : Client} {x y : Exposure}
variable {h : History Exposure Deal} {d : Deal}

/-- What has been signed, and what has been settled, is covered by what the client says it
spent and by the one price that is at risk. -/
structure Covered (rt : Runtime) (agent : Pubkey) (c : Client) (h : History Exposure Deal)
    (x : Exposure) : Prop where
  keys : x.client.keys = c.keys
  reported : x.client.cumulative = c.cumulative + spent h
  nonneg : 0 ≤ x.client.cumulative ∧ 0 ≤ atRisk h
  signed : ∀ claim : Claim, claim.signingBytes ∈ x.signed →
    (claim.cumulativeAmount.toNat : ℤ) ≤ x.client.cumulative + atRisk h
  settled : ∀ s, sessionAt rt x.ledger c.session = some s → s.agent = agent →
    (s.cumulativeSettled.toNat : ℤ) ≤ x.client.cumulative + atRisk h

theorem session_of_keys {c c' : Client} (h : c'.keys = c.keys) : c'.session = c.session := by
  simp only [Client.session, h]

theorem Covered.buy {w : Answers} (hc : Covered rt agent c h x) (hw : Positive (.buy w)) :
    Covered rt agent c (⟨x, .buy w, ⟨(buyOnce w x.client).1, x.signed ++ (buyOnce w x.client).2,
      x.ledger⟩⟩ :: h) ⟨(buyOnce w x.client).1, x.signed ++ (buyOnce w x.client).2, x.ledger⟩ := by
  have hbought : 0 ≤ bought w x.client := bought_nonneg hw
  have hrisk : atRisk (⟨x, .buy w, ⟨(buyOnce w x.client).1,
      x.signed ++ (buyOnce w x.client).2, x.ledger⟩⟩ :: h) =
        max (atRisk h) (unserved w x.client) := rfl
  have hgrow : x.client.cumulative + atRisk h ≤
      (buyOnce w x.client).1.cumulative + max (atRisk h) (unserved w x.client) := by
    rw [buyOnce_cumulative]
    have := le_max_left (atRisk h) (unserved w x.client)
    omega
  have hnew : x.client.cumulative + bought w x.client + unserved w x.client ≤
      (buyOnce w x.client).1.cumulative + max (atRisk h) (unserved w x.client) := by
    rw [buyOnce_cumulative]
    have := le_max_right (atRisk h) (unserved w x.client)
    omega
  refine ⟨buyOnce_keys.trans hc.keys, ?_, ⟨?_, ?_⟩, ?_, ?_⟩
  · rw [buyOnce_cumulative, hc.reported, add_assoc]
    rfl
  · rw [buyOnce_cumulative]
    exact add_nonneg hc.nonneg.1 hbought
  · rw [hrisk]
    exact le_max_of_le_left hc.nonneg.2
  · rw [hrisk]
    intro claim hclaim
    rcases List.mem_append.mp hclaim with hclaim | hclaim
    · exact (hc.signed claim hclaim).trans hgrow
    · rw [buyOnce_covered hclaim]
      exact hnew
  · rw [hrisk]
    exact fun s hs ha => (hc.settled s hs ha).trans hgrow

theorem Covered.plan (hc : Covered rt agent c h x) :
    Covered rt agent c (⟨x, .plan, { x with signed := x.signed ++ planned x.client }⟩ :: h)
      { x with signed := x.signed ++ planned x.client } := by
  have hrisk : atRisk (⟨x, .plan, { x with signed := x.signed ++ planned x.client }⟩ :: h) =
      atRisk h := max_eq_left hc.nonneg.2
  refine ⟨hc.keys, ?_, ?_, ?_, ?_⟩
  · rw [hc.reported]
    exact congrArg _ (add_zero _).symm
  · rw [hrisk]
    exact hc.nonneg
  · rw [hrisk]
    intro claim hclaim
    rcases List.mem_append.mp hclaim with hclaim | hclaim
    · exact hc.signed claim hclaim
    · rw [total_of_handed hclaim]
      exact le_add_of_nonneg_right hc.nonneg.2
  · rw [hrisk]
    exact hc.settled

theorem Covered.chain {l : TransactionLabel} {L : EscrowLedger} (hc : Covered rt agent c h x)
    (hs : TransactionStep verify rt x.ledger l L) (hu : Unforged verify agent x l) :
    Covered rt agent c (⟨x, .chain l, { x with ledger := L }⟩ :: h) { x with ledger := L } := by
  have hrisk : atRisk (⟨x, .chain l, { x with ledger := L }⟩ :: h) = atRisk h :=
    max_eq_left hc.nonneg.2
  refine ⟨hc.keys, ?_, ?_, ?_, ?_⟩
  · rw [hc.reported]
    exact congrArg _ (add_zero _).symm
  · rw [hrisk]
    exact hc.nonneg
  · rw [hrisk]
    exact hc.signed
  · rw [hrisk]
    rintro s hs' rfl
    rcases settledBy_step hs hs' with hzero | ⟨hold, hagent, hsame⟩ | ⟨rfl, hkey, hamount, hcarries⟩
    · rw [hzero]
      exact add_nonneg hc.nonneg.1 hc.nonneg.2
    · rw [← hsame]
      exact hc.settled _ hold hagent
    · rw [← hamount]
      exact hc.signed _ (hu _ (hkey.trans (session_of_keys hc.keys).symm) hcarries)

theorem covered_run {L₀ : EscrowLedger} (hg : Genesis rt L₀) (h₀ : 0 ≤ c.cumulative)
    (hr : Run (DealStep verify rt agent) ⟨c, [], L₀⟩ h x) (hq : ∀ t ∈ h, Positive t.label) :
    Covered rt agent c h x := by
  induction hr with
  | start =>
    refine ⟨rfl, (add_zero _).symm, ⟨h₀, le_rfl⟩, fun _ hnone => absurd hnone List.not_mem_nil, ?_⟩
    exact fun s hs _ => absurd (sessionAt_eq_some.mp hs).1 (hg.owned c.session)
  | step _ hs ih =>
    have hc := ih fun t ht => hq t (List.mem_cons_of_mem _ ht)
    have hw := hq _ List.mem_cons_self
    cases hs with
    | buy w => exact hc.buy hw
    | plan => exact hc.plan
    | chain hs hu => exact hc.chain hs hu

theorem chain_run {L₀ : EscrowLedger} (hr : Run (DealStep verify rt agent) ⟨c, [], L₀⟩ h x) :
    Run (TransactionStep verify rt) L₀ (chainOf h) x.ledger := by
  induction hr with
  | start => exact .start
  | step _ hs ih =>
    cases hs with
    | buy _ => exact ih
    | plan => exact ih
    | chain hs _ => exact ih.step hs

/-- A settled amount is one the client has signed. -/
def SignedFor (rt : Runtime) (agent : Pubkey) (key : Pubkey) (x : Exposure) : Prop :=
  ∀ s, sessionAt rt x.ledger key = some s → s.agent = agent → s.cumulativeSettled ≠ 0 →
    ∃ claim : Claim, claim.session = key ∧ claim.cumulativeAmount = s.cumulativeSettled ∧
      claim.signingBytes ∈ x.signed

theorem signed_step (hs : DealStep verify rt agent x d y) :
    ∀ message ∈ x.signed, message ∈ y.signed := by
  intro message hm
  cases hs with
  | buy | plan => exact List.mem_append_left _ hm
  | chain _ _ => exact hm

theorem keys_step (hs : DealStep verify rt agent x d y) : y.client.keys = x.client.keys := by
  cases hs with
  | buy w => exact buyOnce_keys
  | plan | chain _ _ => rfl

theorem signedFor_step (hx : SignedFor rt agent x.client.session x)
    (hs : DealStep verify rt agent x d y) : SignedFor rt agent x.client.session y := by
  have hgrow := signed_step hs
  cases hs with
  | buy | plan =>
    intro s hs ha hne
    obtain ⟨claim, hkey, hamount, hsigned⟩ := hx s hs ha hne
    exact ⟨claim, hkey, hamount, hgrow _ hsigned⟩
  | chain hs hu =>
    rintro s hs' rfl hne
    rcases settledBy_step hs hs' with hzero | ⟨hold, hagent, hsame⟩ | ⟨rfl, hkey, hamount, hcarries⟩
    · exact absurd hzero hne
    · rw [← hsame] at hne ⊢
      exact hx _ hold hagent hne
    · exact ⟨_, hkey, hamount, hu _ hkey hcarries⟩

theorem signedFor_run {L₀ : EscrowLedger} (hg : Genesis rt L₀)
    (hr : Run (DealStep verify rt agent) ⟨c, [], L₀⟩ h x) :
    x.client.session = c.session ∧ SignedFor rt agent c.session x := by
  induction hr with
  | start => exact ⟨rfl, fun s hs _ _ => absurd (sessionAt_eq_some.mp hs).1 (hg.owned c.session)⟩
  | step _ hs ih =>
    obtain ⟨hsession, hx⟩ := ih
    rw [← hsession] at hx ⊢
    exact ⟨session_of_keys (keys_step hs), signedFor_step hx hs⟩

end Dealing

/-- Whatever the gateway quotes, answers and sends to the chain, a settled amount is one the
client signed, and as long as no quote is below zero the settlements have moved no more than
the client says it has spent, which is what the attempts that went through were quoted, and
the largest price of one attempt that did not. -/
theorem collects_at_most {verify : Scheme} {rt : Runtime} {agent : Pubkey} {c : Client}
    {L₀ : EscrowLedger} {h : History Exposure Deal} {x : Exposure} (hg : Genesis rt L₀)
    (h₀ : 0 ≤ c.cumulative) (hr : Run (DealStep verify rt agent) ⟨c, [], L₀⟩ h x) {s : Session}
    (hs : sessionAt rt x.ledger c.session = some s) (ha : s.agent = agent) :
    settledOut c.session s.vault ((chainOf h).map (project verify)) = s.cumulativeSettled.toNat ∧
      (s.cumulativeSettled ≠ 0 → ∃ claim : Claim, claim.session = c.session ∧
        claim.cumulativeAmount = s.cumulativeSettled ∧ claim.signingBytes ∈ x.signed) ∧
      ((∀ t ∈ h, Positive t.label) → x.client.cumulative = c.cumulative + spent h ∧
        (s.cumulativeSettled.toNat : ℤ) ≤ x.client.cumulative + atRisk h) := by
  have hbooks := books_run (project_run (chain_run hr)) hg hs
  refine ⟨hbooks.settled, (signedFor_run hg hr).2 s hs ha, fun hq => ?_⟩
  have hcovered := covered_run hg h₀ hr hq
  exact ⟨hcovered.reported, hcovered.settled s hs ha⟩

/-! ### A gateway that refuses and settles -/
namespace Office
open SettlementAgreement.Office PayoutAuthority.Office

def client : Client := ⟨⟨Base58.encode session.toList, session.toList, 4000, by simp⟩, 1, 0, 0⟩

theorem client_session : client.session = session := by decide +kernel

def quotes (price : ℤ) (admits : Bool) : Answers :=
  ⟨.ok price, fun _ => .ok signature100.toList, admits⟩

theorem handed100 : handed client.keys 100 1 = [claim100.signingBytes] := by
  have hmessage := claimMessage_fieldsOf claim100
  have hfields : fieldsOf claim100 =
      ⟨client.keys.sessionBytes, 100, 1, client.keys.expiresAt⟩ := rfl
  rw [hfields] at hmessage
  rw [handed, hmessage]

def settled : EscrowLedger := transact scheme runtime opened settleTransaction

theorem send_open : TransactionStep scheme runtime (ledgerOf accounts) (.send openTransaction)
    opened := by
  refine .send (signer_of_not_mem (by decide +kernel)) ?_
  intro now sysvar a args hcall
  cases hcall

theorem send_settle : TransactionStep scheme runtime opened (.send settleTransaction) settled := by
  refine .send (signer_of_not_mem (by decide +kernel)) ?_
  intro now sysvar a args hcall
  cases hcall
  rfl

theorem unforged {x : Exposure} {tx : Transaction} (h : claim100.signingBytes ∈ x.signed) :
    Unforged scheme agent x (.send tx) := by
  rintro claim - ⟨_, _, _, _, _, hverify⟩
  rw [(of_decide_eq_true hverify).2.1]
  exact h

theorem unforged_open {x : Exposure} : Unforged scheme agent x (.send openTransaction) := by
  rintro claim - ⟨ix, hix, offset, signature, hslice, -⟩
  rw [openTransaction, List.mem_singleton] at hix
  subst hix
  simp [slice, require] at hslice

def refused (L : EscrowLedger) : Exposure := ⟨client, [claim100.signingBytes], L⟩

theorem refused_ledger (L : EscrowLedger) : (refused L).ledger = L := rfl

/-- The purchase is refused, and its claim settled. -/
theorem refused_and_settled : ∃ h, Run (DealStep scheme runtime agent)
    ⟨client, [], ledgerOf accounts⟩ h (refused settled) ∧
    (∀ t ∈ h, Positive t.label) ∧ atRisk h = 100 := by
  have hbuy : buyOnce (quotes 100 false) client = (client, [claim100.signingBytes]) := by
    have hno : goesThrough (quotes 100 false) client 100 = false := by
      unfold goesThrough
      split
      · rfl
      · rfl
    rw [← handed100]
    change (if goesThrough (quotes 100 false) client 100 then _ else client, _) = _
    rw [hno]
    rfl
  have hopen := DealStep.chain (x := ⟨client, [], ledgerOf accounts⟩) send_open unforged_open
  have hask : DealStep scheme runtime agent ⟨client, [], opened⟩ (.buy (quotes 100 false))
      (refused opened) := by
    have h := @DealStep.buy scheme runtime agent ⟨client, [], opened⟩ (quotes 100 false)
    rwa [hbuy] at h
  have hsettle := DealStep.chain (x := refused opened) send_settle
    (unforged (List.mem_singleton_self _))
  refine ⟨_, ((Run.start.step hopen).step hask).step hsettle, ?_, by decide +kernel⟩
  intro t ht
  simp only [List.mem_cons, List.not_mem_nil, or_false] at ht
  rcases ht with rfl | rfl | rfl
  · exact trivial
  · rintro price ⟨⟩
    decide
  · exact trivial

theorem settled100 {x : Exposure} (hx : x.ledger = settled) : ∃ s,
    sessionAt runtime x.ledger client.session = some s ∧ s.agent = agent ∧
      s.cumulativeSettled = 100 := by
  have hsettled : (sessionAt runtime settled session).map
      (fun s => (s.agent, s.cumulativeSettled)) = some (agent, 100) := by decide +kernel
  rw [Option.map_eq_some_iff] at hsettled
  obtain ⟨s, hs, hpair⟩ := hsettled
  rw [hx, client_session]
  exact ⟨s, hs, Prod.mk.inj hpair⟩

/-- The client after a purchase at 100 and one at -100. -/
def misled (L : EscrowLedger) : Exposure := ⟨{ client with nonce := 2 },
  [claim100.signingBytes] ++ handed client.keys 0 2, L⟩

theorem misled_ledger (L : EscrowLedger) : (misled L).ledger = L := rfl

theorem paid_and_unpaid : ∃ h, Run (DealStep scheme runtime agent)
    ⟨client, [], ledgerOf accounts⟩ h (misled settled) ∧ atRisk h = 0 := by
  have hfirst : goesThrough (quotes 100 true) client 100 = true := by decide +kernel
  have hsecond : goesThrough (quotes (-100) true) { client with cumulative := 100, nonce := 1 }
      (-100) = true := by decide +kernel
  have hpaid : buyOnce (quotes 100 true) client =
      ({ client with cumulative := 100, nonce := 1 }, [claim100.signingBytes]) := by
    rw [← handed100]
    change (if goesThrough (quotes 100 true) client 100 then _ else client, _) = _
    rw [hfirst]
    rfl
  have hunpaid : buyOnce (quotes (-100) true) { client with cumulative := 100, nonce := 1 } =
      ({ client with nonce := 2 }, handed client.keys 0 2) := by
    change (if goesThrough (quotes (-100) true) { client with cumulative := 100, nonce := 1 } (-100)
      then _ else { client with cumulative := 100, nonce := 1 }, _) = _
    rw [hsecond]
    rfl
  have hopen := DealStep.chain (x := ⟨client, [], ledgerOf accounts⟩) send_open unforged_open
  have hbuy : DealStep scheme runtime agent ⟨client, [], opened⟩ (.buy (quotes 100 true))
      ⟨{ client with cumulative := 100, nonce := 1 }, [claim100.signingBytes], opened⟩ := by
    have h := @DealStep.buy scheme runtime agent ⟨client, [], opened⟩ (quotes 100 true)
    rwa [hpaid] at h
  have hback : DealStep scheme runtime agent
      ⟨{ client with cumulative := 100, nonce := 1 }, [claim100.signingBytes], opened⟩
      (.buy (quotes (-100) true)) (misled opened) := by
    have h := @DealStep.buy scheme runtime agent
      ⟨{ client with cumulative := 100, nonce := 1 }, [claim100.signingBytes], opened⟩
      (quotes (-100) true)
    rwa [hunpaid] at h
  have hsettle := DealStep.chain (x := misled opened) send_settle
    (unforged (List.mem_append_left _ (List.mem_singleton_self _)))
  exact ⟨_, (((Run.start.step hopen).step hbuy).step hback).step hsettle, by decide +kernel⟩

end Office

/-- The gateway refuses the purchase and settles its claim: nothing is spent, 100 were at
risk, and 100 are gone. -/
theorem collects_at_most_office : (Office.refused Office.settled).client = Office.client ∧
    ∃ h s, sessionAt SettlementAgreement.Office.runtime (Office.refused Office.settled).ledger
        Office.client.session = some s ∧ s.cumulativeSettled = 100 ∧
      settledOut Office.client.session s.vault
        ((chainOf h).map (project PayoutAuthority.Office.scheme)) = 100 ∧
      (∃ claim : Claim, claim.session = Office.client.session ∧
        claim.cumulativeAmount = 100 ∧
        claim.signingBytes ∈ (Office.refused Office.settled).signed) ∧
      spent h = 0 ∧ atRisk h = 100 := by
  obtain ⟨h, hr, hpositive, hrisk⟩ := Office.refused_and_settled
  obtain ⟨s, hs, hagent, hamount⟩ := Office.settled100 (Office.refused_ledger Office.settled)
  have h₀ : 0 ≤ Office.client.cumulative := le_refl (0 : ℤ)
  obtain ⟨hmoved, hsigned, hcovered⟩ :=
    collects_at_most SettlementAgreement.Office.start_initial.ledger h₀ hr hs hagent
  rw [hamount] at hmoved hsigned
  obtain ⟨hspent, -⟩ := hcovered hpositive
  have hzero : spent h = 0 := by
    have hsum : (0 : ℤ) = 0 + spent h := hspent
    rw [hsum, zero_add]
  have hne : (100 : UInt64) ≠ 0 := by decide
  exact ⟨rfl, h, s, hs, hamount, hmoved, hsigned hne, hzero, hrisk⟩

/-- With a quote below zero the client says it has spent nothing, and 100 are gone. -/
theorem negative_quote_understates : ∃ h s,
    Run (DealStep PayoutAuthority.Office.scheme SettlementAgreement.Office.runtime
      SettlementAgreement.Office.agent)
      ⟨Office.client, [], ledgerOf SettlementAgreement.Office.accounts⟩ h
      (Office.misled Office.settled) ∧
    sessionAt SettlementAgreement.Office.runtime (Office.misled Office.settled).ledger
      Office.client.session = some s ∧ s.cumulativeSettled = 100 ∧
    (Office.misled Office.settled).client.cumulative + atRisk h = 0 := by
  obtain ⟨h, hr, hrisk⟩ := Office.paid_and_unpaid
  obtain ⟨s, hs, -, hamount⟩ := Office.settled100 (Office.misled_ledger Office.settled)
  refine ⟨h, s, hr, hs, hamount, ?_⟩
  rw [hrisk, add_zero]
  rfl

end AgentPay.UntrustedGateways
