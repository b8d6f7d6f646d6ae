import AgentPay.EscrowBacking
import AgentPay.SessionLayouts
import AgentPay.VaultSolvency

/-!
# What a reconciliation is worth

`verify_on_chain_session` compares five fields and looks at the settled flag. It reads
neither the vault nor the two running totals. That a session it accepts is fully funded
comes from the program: the settled flag is raised with the first settlement, before the
deadline only a settled session has been refunded, and a vault covers what its session
still owes when the mint withholds nothing. The terms it compared never change on chain,
so a record that was once compared agrees with the chain from then on.
-/
namespace AgentPay.ReconciledSessions
open SolanaRuntime EscrowState EscrowProgram EscrowEffects EscrowInvariant VaultSolvency
open GatewayClaims SessionStore SettlementRequests SettlementAgreement EscrowBacking
open SessionLayouts (SessionAccount ofSession)
open RequestPool Fallible Runs

/-- The fields of a session that the gateway claims. -/
def termsOf (s : Session) : ClaimedSession :=
  ⟨s.agent, s.provider, s.mint, s.depositedTotal, s.expiresAt⟩

/-- The chain holds a session of these terms. -/
def OnChain (rt : Runtime) (L : EscrowLedger) (key : Pubkey) (c : ClaimedSession) : Prop :=
  ∃ s, sessionAt rt L key = some s ∧ termsOf s = c

structure RowHolds (row : SessionRow) (c : ClaimedSession) : Prop where
  agent : row.agent = c.agent
  provider : row.provider = c.provider
  mint : row.mint = c.mint
  depositedTotal : row.depositedTotal.toInt = c.depositedTotal.toNat
  expiresAt : row.expiresAt = c.expiresAt

/-- Nothing was settled or refunded, and the vault holds the deposit. -/
structure Funded (L : EscrowLedger) (s : Session) : Prop where
  unsettled : s.cumulativeSettled = 0
  unrefunded : s.refundedTotal = 0
  vault : s.depositedTotal.toNat ≤ balance L s.vault

/-! ### The ledger of the joint system is a ledger of the program -/

section Ledger
variable {cfg : Config} {g₀ g : Desk cfg} {l : DeskLabel cfg} {s' : Shared}

theorem ledger_effect (h : Effect cfg g l s') :
    s'.ledger = g.shared.ledger ∨ ∃ i, Step cfg.rt g.shared.ledger i s'.ledger := by
  cases h with
  | quiet _ hl _ => exact .inl hl
  | @executed _ _ _ tx _ _ => exact .inr ⟨_, .call (c := tx.call _) tx.settler.signer⟩
  | @called signer c hsig _ =>
    refine .inr ⟨_, .call (c := c) ?_⟩
    rw [hsig]
    exact signer.signer
  | external hx => exact .inr ⟨_, .external hx⟩
  | _ => exact .inl rfl

theorem ledger_run {h : History (Desk cfg) (DeskLabel cfg)} (hr : Run (DeskStep cfg) g₀ h g) :
    ∃ hist, Run (Step cfg.rt) g₀.shared.ledger hist g.shared.ledger := by
  induction hr with
  | start => exact ⟨[], .start⟩
  | step _ hs ih =>
    rcases ih with ⟨hist, hrun⟩
    rcases ledger_effect (desk_effect hs) with hsame | ⟨i, hi⟩
    · rw [hsame]
      exact ⟨hist, hrun⟩
    · exact ⟨_, hrun.step hi⟩

theorem refundedLate_run {h : History (Desk cfg) (DeskLabel cfg)} (hr : Run (DeskStep cfg) g₀ h g)
    (h₀ : Initial cfg g₀) : RefundedLate cfg.rt g.shared :=
  hr.invariant_all (I := fun g => RefundedLate cfg.rt g.shared)
    (fun _ _ _ hl hs => refundedLate_effect (desk_effect hs) hl) (exposure_initial h₀).late

end Ledger

section Funding
variable {cfg : Config} {g₀ g : Desk cfg} {key : Pubkey} {s : Session}

/-- An unsettled session of a mint without fees, up to its deadline. -/
theorem funded_of_unsettled {h : History (Desk cfg) (DeskLabel cfg)}
    (hr : Run (DeskStep cfg) g₀ h g) (h₀ : Initial cfg g₀)
    (hexact : ∀ mint amount, cfg.rt.fee mint amount = 0)
    (hs : sessionAt cfg.rt g.shared.ledger key = some s)
    (hclock : g.shared.clock.toInt ≤ s.expiresAt.toInt + 30) (hopen : s.isSettled = false) :
    Funded g.shared.ledger s := by
  rcases ledger_run hr with ⟨hist, hrun⟩
  have hsound := (sound_run (sound_genesis h₀.ledger) hrun).session key s hs
  have hsettled : s.cumulativeSettled.toNat = 0 := by
    by_contra hne
    have hflag := hsound.settledIff.mpr (Nat.pos_of_ne_zero hne)
    rw [hopen] at hflag
    cases hflag
  have hrefunded : s.refundedTotal.toNat = 0 := by
    rcases refundedLate_run hr h₀ key s hs with hflag | hzero | hlate
    · rw [hopen] at hflag
      cases hflag
    · exact hzero
    · omega
  have hcovered : Covered g.shared.ledger s := by
    rw [covered_iff hrun h₀.ledger hs, hexact]
    exact Nat.zero_le _
  refine ⟨UInt64.toNat_inj.mp hsettled, UInt64.toNat_inj.mp hrefunded, ?_⟩
  unfold Covered at hcovered
  omega

end Funding

/-! ### The terms that were compared -/

section Terms
variable {rt : Runtime} {L L' : EscrowLedger} {key : Pubkey} {c claimed : ClaimedSession}
variable {s : Session} {row row' : SessionRow} {record : SessionRecord} {db : Database}

theorem verifyOnChainSession_terms (h : verifyOnChainSession rt L key claimed = .ok s) :
    sessionAt rt L key = some s ∧ termsOf s = claimed := by
  have hfound := (verifyOnChainSession_eq_ok h).found
  simp only [verifyOnChainSession, bind_eq_ok, require_eq_ok, pure_eq_ok, exists_const] at h
  rcases h with ⟨-, -, x, -, -, hdep, hagent, hprovider, hmint, hexp, rfl⟩
  refine ⟨hfound, ?_⟩
  rw [termsOf, hdep, hagent, hprovider, hmint, hexp]

theorem OnChain.outcome {i : EscrowProgram.Label} (h : OnChain rt L key c)
    (ho : Outcome rt L i L') : OnChain rt L' key c := by
  rcases h with ⟨s, hs, hterms⟩
  rcases evolves_outcome ho hs with ⟨s', hs', he⟩
  refine ⟨s', hs', ?_⟩
  rw [← hterms, termsOf, he.terms]
  rfl

theorem RowHolds.evolves (h : RowHolds row c) (he : RowEvolves row row') : RowHolds row' c := by
  rw [he.terms]
  exact ⟨h.agent, h.provider, h.mint, h.depositedTotal, h.expiresAt⟩

/-- A record that was read has the terms of its row. -/
theorem rowHolds_loaded (h : Loaded db key record row) : RowHolds row (claimedOf record) :=
  ⟨h.agent.symm, h.provider.symm, h.mint.symm, h.deposited.symm, h.expires.symm⟩

theorem claimedOf_eq (h : Loaded db key record row) (hrow : RowHolds row c) :
    claimedOf record = c := by
  have hdep : record.depositedTotal = c.depositedTotal := by
    rw [← UInt64.toNat_inj]
    have hread := h.deposited
    have hheld := hrow.depositedTotal
    omega
  rw [claimedOf, h.agent, h.provider, h.mint, h.expires, hdep, hrow.agent, hrow.provider,
    hrow.mint, hrow.expiresAt]

end Terms

/-- The gateway compared the session when it was opened, or later. -/
def Checked (cfg : Config) (verified : Bool) : Prop := cfg.sessionFetcher = true ∨ verified = true

/-- What a request that has read a session says of it. -/
def Compared (cfg : Config) (s : Shared) (r : Request cfg.rt) : Prop :=
  match r.stage, r.kind with
  | .saving record, _ => Checked cfg record.chainVerified →
      OnChain cfg.rt s.ledger record.session (claimedOf record)
  | .compared record, .reconcile session =>
      ∃ row, s.db.sessions session = some row ∧ RowHolds row (claimedOf record)
  | .verified, .reconcile session => ∃ row c, s.db.sessions session = some row ∧ RowHolds row c ∧
      OnChain cfg.rt s.ledger session c
  | _, _ => True

/-- Every record that was compared has the terms the chain has. -/
def Agreed (cfg : Config) (s : Shared) : Prop :=
  ∀ key row, s.db.sessions key = some row → Checked cfg row.chainVerified →
    ∃ c, RowHolds row c ∧ OnChain cfg.rt s.ledger key c

structure Agreement (cfg : Config) (g : Desk cfg) : Prop where
  rows : Agreed cfg g.shared
  requests : Each (Compared cfg) g

section Moves
variable {cfg : Config} {s s' : Shared} {r r' : Request cfg.rt}

theorem compared_open {session : Pubkey} {c : ClaimedSession} :
    Compared cfg s { r with stage := reconcileOpen cfg s session c } := by
  unfold reconcileOpen
  simp only
  split_ifs with hfetch
  · rcases hv : verifyOnChainSession cfg.rt s.ledger session c with e | x
    · trivial
    · intro _
      rcases verifyOnChainSession_terms hv with ⟨hx, hterms⟩
      exact ⟨x, hx, hterms⟩
  · rintro (hc | hc)
    · exact absurd hc hfetch
    · cases hc

theorem compared_read {session : Pubkey} (hk : r.kind = .reconcile session) :
    Compared cfg s { r with stage := readForReconcile cfg s session } := by
  unfold readForReconcile
  rcases hget : getRecord s.db session with e | record
  · trivial
  · simp only
    split_ifs
    · rcases getRecord_loaded hget with ⟨row, -, hload⟩
      simp only [Compared, hk]
      exact ⟨row, hload.found, rowHolds_loaded hload⟩
    · trivial

theorem compared_reconcile {session : Pubkey} {record : SessionRecord}
    (hstage : r.stage = .compared record) (hk : r.kind = .reconcile session)
    (h : Compared cfg s r) :
    Compared cfg s { r with stage := reconcileRecord cfg s session record } := by
  unfold reconcileRecord
  rcases hv : verifyOnChainSession cfg.rt s.ledger session (claimedOf record) with e | x
  · trivial
  · simp only [Compared, hstage, hk] at h ⊢
    rcases h with ⟨row, hrow, hholds⟩
    rcases verifyOnChainSession_terms hv with ⟨hx, hterms⟩
    exact ⟨row, _, hrow, hholds, x, hx, hterms⟩

theorem compared_advance (h : Compared cfg s r) :
    Compared cfg (advance cfg s r).1 { r with stage := (advance cfg s r).2 } := by
  unfold advance
  split
  · exact compared_open
  · rename_i session hstage hk
    exact compared_read hk
  · trivial
  · simp only [saveRecord]
    split
    · trivial
    · trivial
  · rename_i record session hstage hk
    exact compared_reconcile hstage hk h
  · simp only [flagVerified]
    split
    · trivial
    · trivial
  · simp only [readClaim]
    split_ifs
    · split
      · trivial
      · split_ifs
        · trivial
        · split
          · trivial
          · trivial
    · trivial
  · simp only [assignSettler]
    split
    · trivial
    · trivial
  · simp only [submitTransaction]
    split
    · trivial
    · trivial
  · trivial
  · trivial
  · exact h

theorem compared_land {c : Commitment} {tx : SettleTransaction cfg.rt} :
    Compared cfg s' { r with stage := landedStage cfg s c tx } := by
  unfold landedStage
  split
  · trivial
  · trivial

theorem compared_move (h : Move cfg s r s' r') (hr : Compared cfg s r) : Compared cfg s' r' := by
  cases h with
  | handler => exact compared_advance hr
  | land _ => exact compared_land
  | landLate _ => trivial
  | interrupted =>
    cases hstage : r.stage with
    | _ => trivial

end Moves

section Steps
variable {cfg : Config} {g₀ g g' : Desk cfg} {l : DeskLabel cfg} {s' : Shared} {key : Pubkey}
variable {c : ClaimedSession}

theorem onChain_effect (h : Effect cfg g l s') (hc : OnChain cfg.rt g.shared.ledger key c) :
    OnChain cfg.rt s'.ledger key c := by
  rcases ledger_effect h with hsame | ⟨i, hi⟩
  · rw [hsame]
    exact hc
  · exact hc.outcome (step_outcome hi)

/-- What a request has compared is not disturbed by the others. -/
theorem compared_effect {r : Request cfg.rt} (h : Effect cfg g l s')
    (hr : Compared cfg g.shared r) : Compared cfg s' r := by
  have hgrows := (@follows_effect _ _ _ _ systemProgramId h).grows
  unfold Compared at hr ⊢
  split at hr
  · intro hc
    exact onChain_effect h (hr hc)
  · rcases hr with ⟨row, hrow, hholds⟩
    rcases hgrows.rows _ row hrow with ⟨row', hrow', he⟩
    exact ⟨row', hrow', hholds.evolves he⟩
  · rcases hr with ⟨row, c, hrow, hholds, hchain⟩
    rcases hgrows.rows _ row hrow with ⟨row', hrow', he⟩
    exact ⟨row', c, hrow', hholds.evolves he, onChain_effect h hchain⟩
  · trivial

theorem agreed_opened {n : ℕ} {r : Request cfg.rt} {record : SessionRecord} {db : Database}
    (hI : Agreement cfg g) (hr : g.requests[n]? = some r) (hstage : r.stage = .saving record)
    (hok : openRecord g.shared.db record = .ok db) : Agreed cfg { g.shared with db := db } := by
  have hc := hI.requests n r hr
  simp only [Compared, hstage] at hc
  rcases openRecord_eq_ok hok with ⟨d, hd, -, -, rfl⟩
  intro key row hrow hchecked
  simp only [setSession_sessions] at hrow
  split_ifs at hrow with hk
  · have hrow := Option.some.inj hrow
    subst hk hrow
    exact ⟨_, ⟨rfl, rfl, rfl, hd, rfl⟩, hc hchecked⟩
  · exact hI.rows key row hrow hchecked

theorem agreed_flagged {n : ℕ} {r : Request cfg.rt} {session : Pubkey} {db : Database}
    (hI : Agreement cfg g) (hr : g.requests[n]? = some r) (hstage : r.stage = .verified)
    (hk : r.kind = .reconcile session) (hok : markChainVerified g.shared.db session = .ok db) :
    Agreed cfg { g.shared with db := db } := by
  have hc := hI.requests n r hr
  simp only [Compared, hstage, hk] at hc
  rcases hc with ⟨row₁, c, hrow₁, hholds, hchain⟩
  rcases markChainVerified_eq_ok hok with ⟨row₀, hrow₀, rfl⟩
  have hsame := Option.some.inj (hrow₁.symm.trans hrow₀)
  subst hsame
  intro key row hrow hchecked
  simp only [setSession_sessions] at hrow
  split_ifs at hrow with hkey
  · have hrow := Option.some.inj hrow
    subst hkey hrow
    exact ⟨c, ⟨hholds.agent, hholds.provider, hholds.mint, hholds.depositedTotal,
      hholds.expiresAt⟩, hchain⟩
  · exact hI.rows key row hrow hchecked

/-- Setting `settled_at` leaves the terms and the flag of the comparison. -/
theorem markSettled_row {db : Database} {session : Pubkey} {row : SessionRow}
    (h : (markSettled db session).sessions key = some row) : ∃ row₀, db.sessions key = some row₀ ∧
      RowEvolves row₀ row ∧ row₀.chainVerified = row.chainVerified := by
  unfold markSettled markSessionSettled at h
  split at h
  · rename_i row₀ hrow₀
    split_ifs at h
    · exact ⟨row, h, .refl row, rfl⟩
    · simp only [setSession_sessions] at h
      split_ifs at h with hk
      · have hrow := Option.some.inj h
        subst hk hrow
        exact ⟨row₀, hrow₀, ⟨rfl, fun _ => rfl, id⟩, rfl⟩
      · exact ⟨row, h, .refl row, rfl⟩
  · exact ⟨row, h, .refl row, rfl⟩

theorem agreed_effect (h : Effect cfg g l s') (hI : Agreement cfg g) : Agreed cfg s' := by
  have hkeep : s'.db.sessions = g.shared.db.sessions → Agreed cfg s' := by
    intro hsame key row hrow hchecked
    rw [hsame] at hrow
    rcases hI.rows key row hrow hchecked with ⟨c, hholds, hchain⟩
    exact ⟨c, hholds, onChain_effect h hchain⟩
  cases h with
  | quiet hdb _ _ => exact hkeep (by rw [hdb])
  | admitted ha =>
    refine hkeep ?_
    cases ha <;> rfl
  | opened hr hstage hok => exact agreed_opened hI hr hstage hok
  | flagged hr hstage hk hok => exact agreed_flagged hI hr hstage hk hok
  | marked _ _ _ =>
    intro key row hrow hchecked
    rcases markSettled_row hrow with ⟨row₀, hrow₀, he, hv⟩
    rw [← hv] at hchecked
    rcases hI.rows key row₀ hrow₀ hchecked with ⟨c, hholds, hchain⟩
    exact ⟨c, hholds.evolves he, hchain⟩
  | executed _ _ => exact hkeep rfl
  | called _ _ => exact hkeep rfl
  | external _ => exact hkeep rfl

theorem agreement_step (h : DeskStep cfg g l g') (hI : Agreement cfg g) : Agreement cfg g' := by
  have he := desk_effect h
  refine ⟨agreed_effect he hI, ?_⟩
  refine Step.each h hI.requests ?_ ?_ (fun _ _ _ hc => compared_effect he hc)
  · intro r ha
    unfold Compared
    rw [show r.stage = .received from ha]
    trivial
  · intro n r r' _ _ hm hr
    exact compared_move hm hr

theorem agreement_run {h : History (Desk cfg) (DeskLabel cfg)} (hr : Run (DeskStep cfg) g₀ h g)
    (h₀ : Initial cfg g₀) : Agreement cfg g := by
  refine hr.invariant_all (fun _ _ _ hI hs => agreement_step hs hI) ⟨?_, .of_idle h₀.idle⟩
  intro key row hrow
  rw [h₀.tables] at hrow
  cases hrow

theorem onChain_run {h : History (Desk cfg) (DeskLabel cfg)} (hr : Run (DeskStep cfg) g₀ h g)
    (hc : OnChain cfg.rt g₀.shared.ledger key c) : OnChain cfg.rt g.shared.ledger key c :=
  hr.invariant_all (I := fun g => OnChain cfg.rt g.shared.ledger key c)
    (fun _ _ _ hc hs => onChain_effect (desk_effect hs) hc) hc

/-- In every state of every run, a record that was compared has the terms of the chain. -/
theorem compared_record_agrees {h : History (Desk cfg) (DeskLabel cfg)} {record : SessionRecord}
    (hr : Run (DeskStep cfg) g₀ h g) (h₀ : Initial cfg g₀)
    (hget : getRecord g.shared.db key = .ok record) (hchecked : Checked cfg record.chainVerified) :
    OnChain cfg.rt g.shared.ledger key (claimedOf record) := by
  rcases getRecord_loaded hget with ⟨row, -, hload⟩
  rw [hload.verified] at hchecked
  rcases (agreement_run hr h₀).rows key row hload.found hchecked with ⟨c, hholds, hchain⟩
  rw [claimedOf_eq hload hholds]
  exact hchain

end Steps

/-- A session whose bytes are accepted before its deadline is fully funded, and in every
later state the record the gateway keeps of it has its terms: the record is the one that
was compared, or it was compared when it was opened or since. -/
theorem reconciled_session_funded {cfg : Config} {g₀ g : Desk cfg}
    {h : History (Desk cfg) (DeskLabel cfg)} {key : Pubkey} {s : Session}
    {legacyProgramId : Option Pubkey} {claimed : ClaimedSession} {a : SessionAccount}
    (hr : Run (DeskStep cfg) g₀ h g) (h₀ : Initial cfg g₀)
    (hexact : ∀ mint amount, cfg.rt.fee mint amount = 0)
    (hs : sessionAt cfg.rt g.shared.ledger key = some s)
    (hclock : g.shared.clock.toInt ≤ s.expiresAt.toInt + 30)
    (hok : SessionLayouts.verifyOnChainSession cfg.rt.programId legacyProgramId
      (some (some ((g.shared.ledger key).owner, (ofSession s).serialize))) claimed = .ok a) :
    Funded g.shared.ledger s ∧ termsOf s = claimed ∧
      ∀ h' g' record, Run (DeskStep cfg) g h' g' → getRecord g'.shared.db key = .ok record →
        claimedOf record = claimed ∨ Checked cfg record.chainVerified →
        claimedOf record = termsOf s := by
  rcases SessionLayouts.verifyOnChainSession_eq_ok.mp hok with ⟨owner, hfetched, hrec⟩
  have hsame : ofSession s = a := by
    rw [Option.some.injEq, Option.some.injEq, Prod.mk.injEq] at hfetched
    exact SessionLayouts.serialize_injective hfetched.2
  subst hsame
  have hterms : termsOf s = claimed := by
    have hdep : s.depositedTotal = claimed.depositedTotal := hrec.depositedTotal
    have hagent : s.agent = claimed.agent := hrec.agent
    have hprovider : s.provider = claimed.provider := hrec.provider
    have hmint : s.mint = claimed.mint := hrec.mint
    have hexp : s.expiresAt = claimed.expiresAt := hrec.expiresAt
    rw [termsOf, hdep, hagent, hprovider, hmint, hexp]
  refine ⟨funded_of_unsettled hr h₀ hexact hs hclock hrec.unsettled, hterms, ?_⟩
  intro h' g' record hr' hget hwhich
  rcases hwhich with hclaimed | hchecked
  · rw [hclaimed, hterms]
  · rcases compared_record_agrees (hr.append hr') h₀ hget hchecked with ⟨x, hx, hxterms⟩
    rcases onChain_run hr' ⟨s, hs, rfl⟩ with ⟨y, hy, hyterms⟩
    have hxy : x = y := Option.some.inj (hx.symm.trans hy)
    rw [← hxterms, hxy, hyterms]

namespace Office
export EscrowBacking.Office (session agent provider mint vault claim100 signature100 config start
  start_initial opened)
export SettlementAgreement.Office (authority sessionId)

def claimed : ClaimedSession := ⟨agent, provider, mint, 1000, 5000⟩

def account : Session where
  agent := agent
  provider := provider
  settlementAuthority := authority
  mint := mint
  vault := vault
  depositedTotal := 1000
  cumulativeSettled := 0
  refundedTotal := 0
  expiresAt := 5000
  sessionId := sessionId
  bump := 255
  vaultBump := 255
  isSettled := false

def record : SessionRecord :=
  ⟨session, agent, provider, mint, 1000, 5000, 100, some 1, some ⟨claim100, signature100⟩, false,
    true⟩

end Office

/-- The session at 2000, with 100 accepted and nothing settled. -/
theorem reconciled_session_funded_opened :
    Funded Office.opened.2.shared.ledger Office.account ∧
      getRecord Office.opened.2.shared.db Office.session = .ok Office.record ∧
      claimedOf Office.record = termsOf Office.account := by
  have hrun : Run (DeskStep Office.config) Office.start Office.opened.1 Office.opened.2 :=
    playDesk_run _ _ _
  have hs : sessionAt Office.config.rt Office.opened.2.shared.ledger Office.session =
      some Office.account := by decide +kernel
  have hget : getRecord Office.opened.2.shared.db Office.session = .ok Office.record := by
    decide +kernel
  have hclock : Office.opened.2.shared.clock.toInt ≤ Office.account.expiresAt.toInt + 30 := by
    decide +kernel
  have hok : SessionLayouts.verifyOnChainSession Office.config.rt.programId none
      (some (some ((Office.opened.2.shared.ledger Office.session).owner,
        (ofSession Office.account).serialize))) Office.claimed = .ok (ofSession Office.account) :=
    SessionLayouts.verifyOnChainSession_eq_ok.mpr
      ⟨_, rfl, .inl (sessionAt_eq_some.mp hs).1, rfl, rfl, rfl, rfl, rfl, rfl⟩
  have hall := reconciled_session_funded hrun Office.start_initial (fun _ _ => rfl) hs hclock hok
  exact ⟨hall.1, hget, hall.2.2 [] _ _ .start hget (.inl rfl)⟩

end AgentPay.ReconciledSessions
