import AgentPay.SettlementAgreement

/-!
# Admitted claims and the escrow behind them

The gateway compares its record with the chain once, when the session is opened
or reconciled, and then trusts the record until it is expired or flagged as
settled. On chain a settlement opens the refund to the agent at once. A claim on
a verified session is backed in every run in which that early refund is not
taken while the gateway still trusts the session, or has just compared it and is
about to write so.
-/
namespace AgentPay.EscrowBacking
open SolanaRuntime EscrowState ClaimMessage EscrowProgram EscrowEffects EscrowInvariant
open GatewayClaims EvidenceLog SessionStore SettlementRequests SettlementAgreement RequestPool
open Fallible Runs

section Exposure
variable {cfg : Config}

/-- The request has compared the session and will record it as verified. -/
def exposes (key : Pubkey) (r : Request cfg.rt) : Bool :=
  match r.stage, r.kind with
  | .saving record, _ => record.session = key && record.chainVerified
  | .verified, .reconcile session => session = key
  | _, _ => false

/-- The gateway trusts the session, or is about to. -/
def exposed (g : Desk cfg) (key : Pubkey) : Bool :=
  (match g.shared.db.sessions key with
    | some row => row.chainVerified && !row.settled
    | none => false) || g.requests.any (exposes key)

/-- A refund that succeeds before the deadline. -/
def earlyRefund (rt : Runtime) (L : EscrowLedger) (now : Int64) (a : RefundAccounts) : Bool :=
  (error? (refundSession rt L now a)).isNone &&
    match sessionAt rt L a.session with
    | some s => now.toInt ≤ s.expiresAt.toInt + 30
    | none => false

/-- The side condition on a step: a refund call on a session the gateway is exposed to is not
one that pays before the deadline. -/
def NoEarlyRefund (g : Desk cfg) : DeskLabel cfg → Prop
  | .outside (.call _ (.refundSession now a)) =>
    exposed g a.session = true → earlyRefund cfg.rt g.shared.ledger now a = false
  | _ => True

instance (g : Desk cfg) : (l : DeskLabel cfg) → Decidable (NoEarlyRefund g l)
  | .outside (.call _ (.refundSession now a)) => inferInstanceAs (Decidable
      (exposed g a.session = true → earlyRefund cfg.rt g.shared.ledger now a = false))
  | .outside (.call _ (.openSession _ _ _)) => isTrue trivial
  | .outside (.call _ (.settleSession _ _ _ _)) => isTrue trivial
  | .outside (.admitClaim _ _) => isTrue trivial
  | .outside (.external _) => isTrue trivial
  | .outside (.tick _) => isTrue trivial
  | .arrive _ => isTrue trivial
  | .advance _ => isTrue trivial

end Exposure

/-- Nothing was refunded, or the deadline has passed. -/
def Uncollected (x : Session) (clock : Int64) : Prop :=
  x.refundedTotal.toNat = 0 ∨ x.expiresAt.toInt + 30 < clock.toInt

/-- The chain holds a session of these terms from which nothing was refunded
before the deadline. -/
def Backing (rt : Runtime) (s : Shared) (key : Pubkey) (deposited : ℤ) (expires : Int64) : Prop :=
  ∃ x, sessionAt rt s.ledger key = some x ∧ (x.depositedTotal.toNat : ℤ) = deposited ∧
    x.expiresAt = expires ∧ Uncollected x s.clock

/-- Before the deadline only a settled session has been refunded. -/
def RefundedLate (rt : Runtime) (s : Shared) : Prop :=
  ∀ key x, sessionAt rt s.ledger key = some x →
    x.isSettled = true ∨ Uncollected x s.clock

section Chain
variable {rt : Runtime} {L L' : EscrowLedger} {key : Pubkey}

/-- A session through one step: its terms stay, and only a refund of it raises
what was refunded. -/
theorem refunded_outcome {i : EscrowProgram.Label} {x : Session} (h : Outcome rt L i L')
    (hx : sessionAt rt L key = some x) : ∃ x', sessionAt rt L' key = some x' ∧
      x'.depositedTotal = x.depositedTotal ∧ x'.expiresAt = x.expiresAt ∧
      (x.isSettled = true → x'.isSettled = true) ∧
      (x'.refundedTotal = x.refundedTotal ∨ ∃ now a, i = .call (.refundSession now a) ∧
        a.session = key ∧ (x.expiresAt.toInt + 30 < now.toInt ∨ x.isSettled = true)) := by
  obtain ⟨x', hx', he⟩ := evolves_outcome h hx
  refine ⟨x', hx', ?_, ?_, he.stays, ?_⟩
  · rw [he.terms]
  · rw [he.terms]
  · cases h with
    | external hext =>
      rw [External.sessionAt hext, hx] at hx'
      obtain rfl := Option.some.inj hx'
      exact .inl rfl
    | rejected _ =>
      rw [hx] at hx'
      obtain rfl := Option.some.inj hx'
      exact .inl rfl
    | opened hsig h =>
      rw [Opened.sessionAt h] at hx'
      split_ifs at hx' with hk
      · subst hk
        rw [sessionAt_empty h.sessionUnused] at hx
        cases hx
      · rw [hx] at hx'
        obtain rfl := Option.some.inj hx'
        exact .inl rfl
    | settled h =>
      rw [Settled.sessionAt h] at hx'
      split_ifs at hx' with hk
      · subst hk
        obtain rfl := Option.some.inj (h.loaded.symm.trans hx)
        obtain rfl := Option.some.inj hx'
        exact .inl rfl
      · rw [hx] at hx'
        obtain rfl := Option.some.inj hx'
        exact .inl rfl
    | @refunded L' now a s remaining total h =>
      rw [Refunded.sessionAt h] at hx'
      split_ifs at hx' with hk
      · subst hk
        obtain rfl := Option.some.inj (h.loaded.symm.trans hx)
        exact .inr ⟨now, a, rfl, rfl, h.gate.imp_right And.right⟩
      · rw [hx] at hx'
        obtain rfl := Option.some.inj hx'
        exact .inl rfl

theorem session_outcome {i : EscrowProgram.Label} {x' : Session} (h : Outcome rt L i L')
    (hx' : sessionAt rt L' key = some x') :
    (∃ x, sessionAt rt L key = some x) ∨ x'.refundedTotal.toNat = 0 := by
  cases h with
  | external hext =>
    rw [External.sessionAt hext] at hx'
    exact .inl ⟨x', hx'⟩
  | rejected _ => exact .inl ⟨x', hx'⟩
  | opened hsig h =>
    rw [Opened.sessionAt h] at hx'
    split_ifs at hx' with hk
    · obtain rfl := Option.some.inj hx'
      right
      rw [h.opened]
      rfl
    · exact .inl ⟨x', hx'⟩
  | settled h =>
    rw [Settled.sessionAt h] at hx'
    split_ifs at hx' with hk
    · exact .inl ⟨_, hk ▸ h.loaded⟩
    · exact .inl ⟨x', hx'⟩
  | refunded h =>
    rw [Refunded.sessionAt h] at hx'
    split_ifs at hx' with hk
    · exact .inl ⟨_, hk ▸ h.loaded⟩
    · exact .inl ⟨x', hx'⟩

end Chain

section Steps
variable {cfg : Config} {g g' : Desk cfg} {l : DeskLabel cfg} {s s' : Shared} {key : Pubkey}
variable {deposited : ℤ} {expires : Int64}

theorem Uncollected.later {x x' : Session} {clock clock' : Int64} (h : Uncollected x clock)
    (hr : x'.refundedTotal = x.refundedTotal) (he : x'.expiresAt = x.expiresAt)
    (hc : clock.toInt ≤ clock'.toInt) : Uncollected x' clock' := by
  unfold Uncollected at h ⊢
  rw [hr, he]
  omega

/-- The backing of a session through one step of the program. -/
theorem backing_outcome {i : EscrowProgram.Label} (hb : Backing cfg.rt s key deposited expires)
    (h : Outcome cfg.rt s.ledger i s'.ledger) (hclock : s'.clock = s.clock)
    (hrefund : ∀ now a x, i = .call (.refundSession now a) → a.session = key →
      sessionAt cfg.rt s.ledger key = some x → x.expiresAt.toInt + 30 < s.clock.toInt) :
    Backing cfg.rt s' key deposited expires := by
  obtain ⟨x, hx, hdep, hexp, hun⟩ := hb
  obtain ⟨x', hx', hdep', hexp', -, hr⟩ := refunded_outcome h hx
  refine ⟨x', hx', by rw [hdep', hdep], hexp'.trans hexp, ?_⟩
  rw [hclock]
  rcases hr with hr | ⟨now, a, hi, ha, -⟩
  · exact hun.later hr hexp' le_rfl
  · right
    rw [hexp']
    exact hrefund now a x hi ha hx

theorem backing_call {signer : Keypair cfg.rt} {c : Call} (hsig : c.signer = signer.pubkey)
    (hclock : callClock c = g.shared.clock) (hc : NoEarlyRefund g (.outside (.call signer c)))
    (hexp : exposed g key = true) (hb : Backing cfg.rt g.shared key deposited expires) :
    Backing cfg.rt { g.shared with ledger := apply cfg.rt g.shared.ledger c } key deposited
      expires := by
  rcases ok_or_error (execute cfg.rt g.shared.ledger c) with ⟨res, hok⟩ | ⟨e, herr⟩
  · refine backing_outcome hb (called_outcome hsig) rfl ?_
    intro now a x hi ha hx
    cases hi
    subst ha
    have hearly := hc hexp
    have hnow : now = g.shared.clock := hclock
    have hsucc : error? (refundSession cfg.rt g.shared.ledger now a) = none :=
      error?_eq_none.mpr ⟨res, hok⟩
    simp only [earlyRefund, hsucc, hx, Option.isNone_none, Bool.true_and,
      decide_eq_false_iff_not] at hearly
    rw [hnow] at hearly
    omega
  · simp only [apply, herr]
    exact hb

/-- The backing of a session the gateway is exposed to survives every step that
meets the condition. -/
theorem backing_effect (h : Effect cfg g l s') (hc : NoEarlyRefund g l)
    (hexp : exposed g key = true) (hb : Backing cfg.rt g.shared key deposited expires) :
    Backing cfg.rt s' key deposited expires := by
  cases h with
  | quiet _ hl hclock =>
    obtain ⟨x, hx, hdep, he, hun⟩ := hb
    refine ⟨x, ?_, hdep, he, hun.later rfl rfl hclock⟩
    rw [hl]
    exact hx
  | @executed _ _ _ tx _ _ =>
    refine backing_outcome hb (execTransaction_outcome tx) rfl ?_
    intro now a x hi
    cases hi
  | called hsig hclock => exact backing_call hsig hclock hc hexp hb
  | external hx =>
    refine backing_outcome hb (.external hx) rfl ?_
    intro now a x hi
    cases hi
  | _ => exact hb

theorem refundedLate_outcome {i : EscrowProgram.Label} (hl : RefundedLate cfg.rt s)
    (h : Outcome cfg.rt s.ledger i s'.ledger) (hclock : s'.clock = s.clock)
    (hnow : ∀ now a, i = .call (.refundSession now a) → now = s.clock) :
    RefundedLate cfg.rt s' := by
  intro key x' hx'
  rw [hclock]
  rcases session_outcome h hx' with ⟨x, hx⟩ | hz
  · obtain ⟨y, hy, -, hexp, hset, hr⟩ := refunded_outcome h hx
    obtain rfl := Option.some.inj (hy.symm.trans hx')
    rcases hr with hr | ⟨now, a, hi, -, hlate | hs⟩
    · exact (hl key x hx).imp hset fun hun => hun.later hr hexp le_rfl
    · right
      right
      rw [hexp, ← hnow now a hi]
      exact hlate
    · exact .inl (hset hs)
  · exact .inr (.inl hz)

theorem refundedLate_effect (h : Effect cfg g l s') (hl : RefundedLate cfg.rt g.shared) :
    RefundedLate cfg.rt s' := by
  cases h with
  | quiet _ hled hclock =>
    intro key x hx
    rw [hled] at hx
    exact (hl key x hx).imp_right fun hun => hun.later rfl rfl hclock
  | @executed _ _ _ tx _ _ =>
    refine refundedLate_outcome hl (execTransaction_outcome tx) rfl ?_
    intro now a hi
    cases hi
  | called hsig hclock =>
    refine refundedLate_outcome hl (called_outcome hsig) rfl ?_
    intro now a hi
    cases hi
    exact hclock
  | external hx =>
    refine refundedLate_outcome hl (.external hx) rfl ?_
    intro now a hi
    cases hi
  | _ => exact hl

/-- What the comparison with the chain establishes. -/
theorem backing_reconciled {claimed : ClaimedSession} {x : Session}
    (hl : RefundedLate cfg.rt s) (h : Reconciled cfg.rt s.ledger key claimed x) :
    Backing cfg.rt s key claimed.depositedTotal.toNat claimed.expiresAt := by
  refine ⟨x, h.found, by rw [h.deposited], h.expires, ?_⟩
  rcases hl key x h.found with hs | hun
  · rw [h.unsettled] at hs
    cases hs
  · exact hun

theorem exposed_row {row : SessionRow} (h : g.shared.db.sessions key = some row)
    (hv : row.chainVerified = true) (hs : row.settled = false) : exposed g key = true := by
  simp [exposed, h, hv, hs]

theorem exposed_request {n : ℕ} {r : Request cfg.rt} (h : g.requests[n]? = some r)
    (hr : exposes key r = true) : exposed g key = true := by
  unfold exposed
  rw [Bool.or_eq_true]
  exact .inr (List.any_eq_true.mpr ⟨r, List.mem_of_getElem? h, hr⟩)

end Steps

/-! ### Records and requests -/

/-- What a request that has compared a session, or will, says of it. -/
def Pending (cfg : Config) (s : Shared) (r : Request cfg.rt) : Prop :=
  match r.stage, r.kind with
  | .saving record, _ => record.chainVerified = true →
      Backing cfg.rt s record.session record.depositedTotal.toNat record.expiresAt
  | .compared record, .reconcile session => ∃ row, s.db.sessions session = some row ∧
      (record.depositedTotal.toNat : ℤ) = row.depositedTotal.toInt ∧
      record.expiresAt = row.expiresAt
  | .verified, .reconcile session => ∃ row, s.db.sessions session = some row ∧
      Backing cfg.rt s session row.depositedTotal.toInt row.expiresAt
  | _, _ => True

/-- Every session the gateway trusts is backed. -/
def Trusted (rt : Runtime) (s : Shared) : Prop :=
  ∀ key row, s.db.sessions key = some row → row.chainVerified = true → row.settled = false →
    Backing rt s key row.depositedTotal.toInt row.expiresAt

structure Exposure (cfg : Config) (g : Desk cfg) : Prop where
  late : RefundedLate cfg.rt g.shared
  trusted : Trusted cfg.rt g.shared
  pending : Each (Pending cfg) g

section Invariant
variable {cfg : Config} {g g' : Desk cfg} {l : DeskLabel cfg} {s s' : Shared}
variable {r : Request cfg.rt}

theorem pending_effect {n : ℕ} (h : Effect cfg g l s') (hc : NoEarlyRefund g l)
    (hr : g.requests[n]? = some r) (hp : Pending cfg g.shared r) : Pending cfg s' r := by
  have hgrows := (@follows_effect _ _ _ _ systemProgramId h).grows
  unfold Pending at hp ⊢
  split at hp
  · rename_i record hstage
    intro hv
    exact backing_effect h hc (exposed_request hr (by simp [exposes, hstage, hv])) (hp hv)
  · obtain ⟨row, hrow, hdep, hexp⟩ := hp
    obtain ⟨row', hrow', he⟩ := hgrows.rows _ row hrow
    refine ⟨row', hrow', ?_, ?_⟩
    · rw [he.terms]
      exact hdep
    · rw [he.terms]
      exact hexp
  · rename_i session hstage hk
    obtain ⟨row, hrow, hb⟩ := hp
    obtain ⟨row', hrow', he⟩ := hgrows.rows _ row hrow
    refine ⟨row', hrow', ?_⟩
    rw [he.terms]
    exact backing_effect h hc (exposed_request hr (by simp [exposes, hstage, hk])) hb
  · trivial

theorem pending_next {stage : Stage cfg.rt} (h : Next cfg s r s' stage)
    (hl : RefundedLate cfg.rt s) (hp : Pending cfg s r) :
    Pending cfg s' { r with stage := stage } := by
  cases h with
  | saving _ _ hses hdep hexp hrec =>
    intro hv
    obtain ⟨x, hx⟩ := hrec hv
    rw [hses, hdep, hexp]
    exact backing_reconciled hl hx
  | compared _ hk hget =>
    obtain ⟨row, -, hload⟩ := getRecord_loaded hget
    simp only [Pending, hk]
    exact ⟨row, hload.found, hload.deposited, hload.expires⟩
  | verified hstage hk hrec =>
    simp only [Pending, hstage, hk] at hp ⊢
    obtain ⟨row, hrow, hdep, hexp⟩ := hp
    refine ⟨row, hrow, ?_⟩
    rw [← hdep, ← hexp]
    exact backing_reconciled hl hrec
  | idle => exact hp
  | _ => trivial

theorem trusted_opened {n : ℕ} {record : SessionRecord} {db : Database} (hI : Exposure cfg g)
    (hr : g.requests[n]? = some r) (hstage : r.stage = .saving record)
    (hok : openRecord g.shared.db record = .ok db) :
    Trusted cfg.rt { g.shared with db := db } := by
  obtain ⟨d, hd, -, -, rfl⟩ := openRecord_eq_ok hok
  have hp := hI.pending n r hr
  simp only [Pending, hstage] at hp
  intro key row hrow hv hs
  simp only [setSession_sessions] at hrow
  split_ifs at hrow with hk
  · obtain rfl := Option.some.inj hrow
    subst hk
    simp only at hv ⊢
    rw [hd]
    exact hp hv
  · exact hI.trusted key row hrow hv hs

theorem trusted_flagged {n : ℕ} {session : Pubkey} {db : Database} (hI : Exposure cfg g)
    (hr : g.requests[n]? = some r) (hstage : r.stage = .verified) (hk : r.kind = .reconcile session)
    (hok : markChainVerified g.shared.db session = .ok db) :
    Trusted cfg.rt { g.shared with db := db } := by
  obtain ⟨row₀, hrow₀, rfl⟩ := markChainVerified_eq_ok hok
  have hp := hI.pending n r hr
  simp only [Pending, hstage, hk] at hp
  obtain ⟨row₁, hrow₁, hb⟩ := hp
  obtain rfl := Option.some.inj (hrow₁.symm.trans hrow₀)
  intro key row hrow hv hs
  simp only [setSession_sessions] at hrow
  split_ifs at hrow with hkey
  · obtain rfl := Option.some.inj hrow
    rw [hkey]
    exact hb
  · exact hI.trusted key row hrow hv hs

theorem markSettled_unsettled {db : Database} {session key : Pubkey} {row : SessionRow}
    (h : (markSettled db session).sessions key = some row) (hs : row.settled = false) :
    db.sessions key = some row := by
  unfold markSettled markSessionSettled at h
  split at h
  · split_ifs at h
    · exact h
    · simp only [setSession_sessions] at h
      split_ifs at h
      · obtain rfl := Option.some.inj h
        cases hs
      · exact h
  · exact h

theorem trusted_effect (h : Effect cfg g l s') (hc : NoEarlyRefund g l) (hI : Exposure cfg g) :
    Trusted cfg.rt s' := by
  have hkeep : s'.db.sessions = g.shared.db.sessions → Trusted cfg.rt s' := by
    intro hsame key row hrow hv hs
    rw [hsame] at hrow
    exact backing_effect h hc (exposed_row hrow hv hs) (hI.trusted key row hrow hv hs)
  cases h with
  | quiet hdb _ _ => exact hkeep (by rw [hdb])
  | admitted ha =>
    refine hkeep ?_
    cases ha <;> rfl
  | opened hr hstage hok => exact trusted_opened hI hr hstage hok
  | flagged hr hstage hk hok => exact trusted_flagged hI hr hstage hk hok
  | marked _ _ _ =>
    intro key row hrow hv hs
    exact hI.trusted key row (markSettled_unsettled hrow hs) hv hs
  | executed _ _ => exact hkeep rfl
  | called _ _ => exact hkeep rfl
  | external _ => exact hkeep rfl

theorem exposure_step (h : DeskStep cfg g l g') (hc : NoEarlyRefund g l) (hI : Exposure cfg g) :
    Exposure cfg g' := by
  have he := desk_effect h
  refine ⟨refundedLate_effect he hI.late, trusted_effect he hc hI, ?_⟩
  refine Step.each h hI.pending ?_ ?_ (fun _ _ hx hp => pending_effect he hc hx hp)
  · intro r ha
    unfold Pending
    rw [show r.stage = .received from ha]
    trivial
  · intro n r r' _ _ hm hr
    obtain ⟨hset, hn⟩ := move_next hm
    rw [hset]
    exact pending_next hn hI.late hr

theorem exposure_initial (h : Initial cfg g) : Exposure cfg g := by
  refine ⟨?_, ?_, .of_idle h.idle⟩
  · intro key x hx
    exact absurd (sessionAt_eq_some.mp hx).1 (h.ledger.owned key)
  · intro key row hrow
    rw [h.tables] at hrow
    cases hrow

end Invariant

/-- In every run in which no early refund is taken from a session the gateway is
exposed to, a claim it accepts on a verified session fits what the escrow still
holds for it. -/
theorem admitted_claims_backed {cfg : Config} {g₀ g : Desk cfg}
    {h : History (Desk cfg) (DeskLabel cfg)} {claim : Claim} {signature : Signature}
    {db : Database} {acc : ClaimAccepted} {row : SessionRow} (hr : Run (DeskStep cfg) g₀ h g)
    (h₀ : Initial cfg g₀) (hc : ∀ t ∈ h, NoEarlyRefund t.before t.label)
    (hok : admitClaim cfg.rt.sha256 g.shared.db claim signature g.shared.clock = .ok (db, .ok acc))
    (hrow : g.shared.db.sessions claim.session = some row) (hv : row.chainVerified = true) :
    ∃ s, sessionAt cfg.rt g.shared.ledger claim.session = some s ∧
      claim.cumulativeAmount.toNat + s.refundedTotal.toNat ≤ s.depositedTotal.toNat := by
  have hI : Exposure cfg g :=
    hr.invariant (I := Exposure cfg) (C := NoEarlyRefund)
      (fun _ _ _ hI hc hs => exposure_step hs hc hI) (exposure_initial h₀) hc
  cases admitClaim_effect hok with
  | @accepted _ row' e t ha =>
    obtain rfl := Option.some.inj (ha.found.symm.trans hrow)
    obtain ⟨x, hx, hdep, hexp, hun⟩ := hI.trusted claim.session _ hrow hv ha.unsettled
    refine ⟨x, hx, ?_⟩
    have hwithin := ha.within
    have htime := le_sessionLimit_iff.mp ha.inTime
    have hclock := g.shared.clock.toInt_lt
    rcases hun with hzero | hlate
    · omega
    · rw [hexp] at hlate
      omega

/-- The answer to a claim, without the tables. -/
def answer (r : Except StoreError (Database × Except ClaimRejection ClaimAccepted)) :
    Option ClaimAccepted :=
  match r with
  | .ok (_, .ok acc) => some acc
  | _ => none

theorem answer_eq_some {r : Except StoreError (Database × Except ClaimRejection ClaimAccepted)}
    {acc : ClaimAccepted} (h : answer r = some acc) : ∃ db, r = .ok (db, .ok acc) := by
  unfold answer at h
  split at h
  · rename_i db acc'
    obtain rfl := Option.some.inj h
    exact ⟨db, rfl⟩
  · cases h

namespace Office
export SettlementAgreement.Office (session vault agent provider agentToken mint agentKey claim100 claim500
  signature100 signature500 runtime config start start_initial opening)

/-- The session at 2000, open and with 100 accepted. -/
def opened : History (Desk config) (DeskLabel config) × Desk config := playDesk config start opening

/-- The settlement of 100 has landed and the handler has not heard of it; the
agent takes the other 900. -/
def refunded : History (Desk config) (DeskLabel config) × Desk config := playDesk config start
  ([.outside (.call agentKey (.refundSession 2000
      ⟨agent, session, vault, agentToken, mint, tokenProgramId⟩)),
    .advance 1, .advance 1, .advance 1, .advance 1, .advance 1,
    .arrive ⟨.settle session, .received⟩] ++ opening)

def row : SessionRow := ⟨agent, provider, mint, 1000, 5000, false, true⟩

end Office

/-- A claim for 500 on the open session. -/
theorem admitted_claims_backed_opened :
    (∃ db, admitClaim Office.config.rt.sha256 Office.opened.2.shared.db Office.claim500
      Office.signature500 Office.opened.2.shared.clock = .ok (db, .ok ⟨500, 100, 400, 2⟩)) ∧
    ∃ s, sessionAt Office.config.rt Office.opened.2.shared.ledger Office.session = some s ∧
      500 + s.refundedTotal.toNat ≤ s.depositedTotal.toNat := by
  have hrun : Run (DeskStep Office.config) Office.start Office.opened.1 Office.opened.2 :=
    playDesk_run _ _ _
  have hrow : Office.opened.2.shared.db.sessions Office.session = some Office.row := by
    decide +kernel
  have hans : answer (admitClaim Office.config.rt.sha256 Office.opened.2.shared.db Office.claim500
      Office.signature500 Office.opened.2.shared.clock) = some ⟨500, 100, 400, 2⟩ := by
    decide +kernel
  obtain ⟨db, hok⟩ := answer_eq_some hans
  exact ⟨⟨db, hok⟩, admitted_claims_backed hrun Office.start_initial (by decide +kernel) hok hrow rfl⟩

/-- The claim for 500 is accepted on a verified session from which 900 of the
1000 are gone. -/
theorem admitted_claim_unbacked :
    Run (DeskStep Office.config) Office.start Office.refunded.1 Office.refunded.2 ∧
    Initial Office.config Office.start ∧
    (∃ db, admitClaim Office.config.rt.sha256 Office.refunded.2.shared.db Office.claim500
      Office.signature500 Office.refunded.2.shared.clock = .ok (db, .ok ⟨500, 100, 400, 2⟩)) ∧
    Office.refunded.2.shared.db.sessions Office.session = some Office.row ∧
    Office.row.chainVerified = true ∧
    (sessionAt Office.config.rt Office.refunded.2.shared.ledger Office.session).map
      (fun s => (s.depositedTotal, s.cumulativeSettled, s.refundedTotal)) = some (1000, 100, 900) ∧
    ¬ ∃ s, sessionAt Office.config.rt Office.refunded.2.shared.ledger Office.session = some s ∧
      500 + s.refundedTotal.toNat ≤ s.depositedTotal.toNat := by
  have hans : answer (admitClaim Office.config.rt.sha256 Office.refunded.2.shared.db
      Office.claim500 Office.signature500 Office.refunded.2.shared.clock) =
        some ⟨500, 100, 400, 2⟩ := by decide +kernel
  have hchain : (sessionAt Office.config.rt Office.refunded.2.shared.ledger Office.session).map
      (fun s => (s.depositedTotal, s.cumulativeSettled, s.refundedTotal)) =
        some (1000, 100, 900) := by decide +kernel
  refine ⟨playDesk_run _ _ _, Office.start_initial, answer_eq_some hans, by decide +kernel, rfl,
    hchain, ?_⟩
  rintro ⟨s, hs, hle⟩
  rw [hs, Option.map_some, Option.some.injEq, Prod.mk.injEq, Prod.mk.injEq] at hchain
  obtain ⟨hdep, -, href⟩ := hchain
  rw [hdep, href] at hle
  exact absurd hle (by decide)

end AgentPay.EscrowBacking
