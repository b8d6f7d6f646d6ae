import AgentPay.SettlementRequests

/-!
# What a settled flag says about the chain

The handler reads the evidence leaves, then the claim, then the chain, submits,
and sets the flag last, with no lock across these steps, while claims keep being
admitted. Everything a request carries is therefore a snapshot, and the
invariant states what a snapshot still says about the present: the root is that
of a prefix of the log, the amount is at most the mark, and if nothing was
appended since, both are current. The flag agrees with the chain in every run in
which the handler, when it sets the flag, finds the mark (or the log) it read.
-/
namespace AgentPay.SettlementAgreement
open SolanaRuntime EscrowState ClaimMessage EscrowProgram EscrowEffects EscrowInvariant
open GatewayClaims EvidenceLog SessionStore SettlementRequests RequestPool Fallible Runs

/-- The root in the receipt of a session, if it has one. The receipt is looked up where the
program puts it, at the address derived from the session. -/
def committedRoot (rt : Runtime) (L : EscrowLedger) (key : Pubkey) : Option Hash :=
  match rt.findProgramAddress (settlementSeeds key) with
  | some (k, _) => (recordAt rt L k).map SettlementRecord.merkleRoot
  | none => none

section Chain
variable {rt : Runtime} {L L' : EscrowLedger} {key : Pubkey} {s : Session} {root : Hash}

theorem committedRoot_eq_some : committedRoot rt L key = some root ↔
    ∃ k b r, rt.findProgramAddress (settlementSeeds key) = some (k, b) ∧
      recordAt rt L k = some r ∧ r.merkleRoot = root := by
  unfold committedRoot
  split
  · rename_i k b hf
    simp [hf]
  · rename_i hf
    simp [hf]

/-- The root survives where the receipt's address is kept. -/
theorem committedRoot_kept (h : committedRoot rt L key = some root)
    (hk : ∀ k b, rt.findProgramAddress (settlementSeeds key) = some (k, b) →
      (L k).data.token? = none → Kept L L' k) : committedRoot rt L' key = some root := by
  obtain ⟨k, b, r, hf, hr, hroot⟩ := committedRoot_eq_some.mp h
  have hd : (L k).data.token? = none := by
    rw [(recordAt_eq_some.mp hr).2]
    rfl
  exact committedRoot_eq_some.mpr
    ⟨k, b, r, hf, (EscrowInvariant.Kept.recordAt (hk k b hf hd)).trans hr, hroot⟩

/-- A step that does not raise the settled amount of a session keeps its root. -/
theorem committedRoot_outcome {i : EscrowProgram.Label} (h : Outcome rt L i L')
    (hs : sessionAt rt L key = some s) : ∃ s', sessionAt rt L' key = some s' ∧
      s.cumulativeSettled.toNat ≤ s'.cumulativeSettled.toNat ∧
      (s'.cumulativeSettled.toNat = s.cumulativeSettled.toNat →
        ∀ root, committedRoot rt L key = some root → committedRoot rt L' key = some root) := by
  obtain ⟨s', hs', he⟩ := evolves_outcome h hs
  refine ⟨s', hs', he.settledLe, ?_⟩
  intro heq root hroot
  cases h with
  | external hx =>
    obtain ⟨k, b, r, hf, hr, hroot⟩ := committedRoot_eq_some.mp hroot
    exact committedRoot_eq_some.mpr ⟨k, b, r, hf, External.recordAt hx hr, hroot⟩
  | rejected _ => exact hroot
  | opened hsig h =>
    refine committedRoot_kept hroot ?_
    intro k b hf hd
    have hder := rt.derive_of_find hf
    exact Opened.kept h (session_ne_record h.derived hder).symm
      (vault_ne_record h.vaultDerived hder).symm hd
  | @settled L' now sysvar a args s₁ delta h =>
    obtain ⟨bump, hrecord, -⟩ := h.receiptWritten
    refine committedRoot_kept hroot ?_
    intro k b hf hd
    have hder := rt.derive_of_find hf
    refine Settled.kept h (session_ne_record h.derived hder).symm ?_ hd
    rintro rfl
    obtain rfl := settlementSeeds_injective hder (rt.derive_of_find hrecord)
    rw [Settled.sessionAt h, if_pos rfl, Option.some.injEq] at hs'
    obtain rfl : s₁ = s := Option.some.inj (h.loaded.symm.trans hs)
    have hlt := (settleChecks_eq_ok.mp h.checks).2.2.1
    rw [← hs'] at heq
    simp only [Session.settledAt] at heq
    omega
  | @refunded L' now a s₁ remaining total h =>
    refine committedRoot_kept hroot ?_
    intro k b hf hd
    exact Refunded.kept h (session_ne_record h.derived (rt.derive_of_find hf)).symm hd

/-- Where the settled amount of a session can come from. -/
theorem settled_outcome {i : EscrowProgram.Label} {s' : Session} (h : Outcome rt L i L')
    (hs' : sessionAt rt L' key = some s') :
    (∃ s, sessionAt rt L key = some s ∧ s'.cumulativeSettled = s.cumulativeSettled) ∨
    s'.cumulativeSettled = 0 ∨
    ∃ now sysvar a args, i = .call (.settleSession now sysvar a args) ∧ a.session = key ∧
      s'.cumulativeSettled = args.cumulativeAmount := by
  cases h with
  | external hx =>
    rw [External.sessionAt hx] at hs'
    exact .inl ⟨s', hs', rfl⟩
  | rejected _ => exact .inl ⟨s', hs', rfl⟩
  | opened hsig h =>
    rw [Opened.sessionAt h] at hs'
    split_ifs at hs' with hk
    · obtain rfl := Option.some.inj hs'
      right
      left
      rw [h.opened]
      rfl
    · exact .inl ⟨s', hs', rfl⟩
  | @settled L' now sysvar a args s₁ delta h =>
    rw [Settled.sessionAt h] at hs'
    split_ifs at hs' with hk
    · obtain rfl := Option.some.inj hs'
      exact .inr (.inr ⟨now, sysvar, a, args, rfl, hk.symm, rfl⟩)
    · exact .inl ⟨s', hs', rfl⟩
  | @refunded L' now a s₁ remaining total h =>
    rw [Refunded.sessionAt h] at hs'
    split_ifs at hs' with hk
    · obtain rfl := Option.some.inj hs'
      subst hk
      exact .inl ⟨s₁, h.loaded, rfl⟩
    · exact .inl ⟨s', hs', rfl⟩

/-- A settlement that succeeded set the amount and the root it carried. -/
theorem settled_execute {tx : SettleTransaction rt} {now : Int64} {ev : EscrowState.Event}
    (h : execute rt L (tx.call now) = .ok (L', ev)) : ∃ s', sessionAt rt L' tx.session = some s' ∧
      s'.cumulativeSettled = tx.claim.cumulativeAmount ∧
      committedRoot rt L' tx.session = some tx.merkleRoot := by
  obtain ⟨s, delta, hset⟩ := settleSession_effect h
  obtain ⟨bump, hf, ho, hd⟩ := hset.receiptWritten
  refine ⟨_, (Settled.sessionAt hset tx.session).trans (if_pos rfl), rfl, ?_⟩
  exact committedRoot_eq_some.mpr ⟨_, bump, _, hf, recordAt_eq_some.mpr ⟨ho, hd⟩, rfl⟩

end Chain

/-! ### One step of the system -/

/-- What a step did to the tables and the ledger. -/
inductive Effect (cfg : Config) (g : Desk cfg) : DeskLabel cfg → Shared → Prop
  | quiet {l : DeskLabel cfg} {s' : Shared} : s'.db = g.shared.db →
      s'.ledger = g.shared.ledger → g.shared.clock.toInt ≤ s'.clock.toInt → Effect cfg g l s'
  | admitted {claim : Claim} {signature : Signature} {db : Database}
      {outcome : Except ClaimRejection ClaimAccepted} :
      AdmitEffect g.shared.db claim signature g.shared.clock outcome db →
      Effect cfg g (.outside (.admitClaim claim signature)) { g.shared with db := db }
  | opened {n : ℕ} {r : Request cfg.rt} {record : SessionRecord} {db : Database} :
      g.requests[n]? = some r → r.stage = .saving record →
      openRecord g.shared.db record = .ok db →
      Effect cfg g (.advance n) { g.shared with db := db }
  | flagged {n : ℕ} {r : Request cfg.rt} {session : Pubkey} {db : Database} :
      g.requests[n]? = some r → r.stage = .verified → r.kind = .reconcile session →
      markChainVerified g.shared.db session = .ok db →
      Effect cfg g (.advance n) { g.shared with db := db }
  | marked {n : ℕ} {r : Request cfg.rt} {c : Commitment} {tx : SettleTransaction cfg.rt}
      {session : Pubkey} : g.requests[n]? = some r → r.stage = .confirmed c tx →
      r.kind = .settle session →
      Effect cfg g (.advance n) { g.shared with db := markSettled g.shared.db session }
  | executed {n : ℕ} {r : Request cfg.rt} {c : Commitment} {tx : SettleTransaction cfg.rt} :
      g.requests[n]? = some r → r.stage = .submitted c tx ∨ r.stage = .abandoned c tx →
      Effect cfg g (.advance n) (execTransaction cfg g.shared tx)
  | called {signer : Keypair cfg.rt} {c : Call} : c.signer = signer.pubkey →
      callClock c = g.shared.clock →
      Effect cfg g (.outside (.call signer c))
        { g.shared with ledger := apply cfg.rt g.shared.ledger c }
  | external {L : EscrowLedger} : External cfg.rt g.shared.ledger L →
      Effect cfg g (.outside (.external L)) { g.shared with ledger := L }

theorem desk_effect {cfg : Config} {g g' : Desk cfg} {l : DeskLabel cfg}
    (h : DeskStep cfg g l g') : Effect cfg g l g'.shared := by
  cases h with
  | arrive _ => exact .quiet rfl rfl le_rfl
  | @advance s s' rs r r' n hr hm =>
    obtain ⟨-, hn⟩ := move_next hm
    generalize r'.stage = stage at hn
    cases hn with
    | saved hstage hok => exact .opened (g := ⟨s, rs⟩) hr hstage hok
    | flagged hstage hk hok => exact .flagged (g := ⟨s, rs⟩) hr hstage hk hok
    | marked hstage hk => exact .marked (g := ⟨s, rs⟩) hr hstage hk
    | landed hstage _ => exact .executed (g := ⟨s, rs⟩) hr (.inl hstage)
    | spent hstage => exact .executed (g := ⟨s, rs⟩) hr hstage
    | _ => exact .quiet rfl rfl le_rfl
  | @outside s s' rs e ho =>
    cases ho with
    | admitClaim hok => exact .admitted (g := ⟨s, rs⟩) (admitClaim_effect hok)
    | call hsig hclock => exact .called (g := ⟨s, rs⟩) hsig hclock
    | external hx => exact .external (g := ⟨s, rs⟩) hx
    | tick hle => exact .quiet rfl rfl hle

/-! ### The tables of one session -/

/-- The settled flag, where there is a row. -/
def settledFlag (db : Database) (key : Pubkey) : Option Bool :=
  (db.sessions key).map SessionRow.settled

/-- A change that sets no flag and leaves a flagged session alone. -/
structure Steady (key : Pubkey) (db db' : Database) : Prop where
  backwards : settledFlag db' key = some true → settledFlag db key = some true
  frozen : settledFlag db key = some true →
    db'.tickets key = db.tickets key ∧ db'.evidence key = db.evidence key

def StillMark (key : Pubkey) (db db' : Database) : Prop :=
  (db'.evidence key).length = (db.evidence key).length → db'.mark key = db.mark key

section Tables
variable {key session : Pubkey} {db db' : Database}

theorem mark_congr (h : db'.tickets key = db.tickets key) : db'.mark key = db.mark key := by
  unfold Database.mark
  rw [amount_congr h]

theorem Steady.of_rows (h : settledFlag db' key = some true → settledFlag db key = some true)
    (ht : db'.tickets = db.tickets) (he : db'.evidence = db.evidence) : Steady key db db' :=
  ⟨h, fun _ => ⟨congrFun ht key, congrFun he key⟩⟩

theorem stillMark_of_tickets (h : db'.tickets = db.tickets) : StillMark key db db' :=
  fun _ => mark_congr (congrFun h key)

theorem admit_steady {claim : Claim} {signature : Signature} {now : Int64}
    {outcome : Except ClaimRejection ClaimAccepted}
    (h : AdmitEffect db claim signature now outcome db') :
    Steady key db db' ∧ StillMark key db db' := by
  cases h with
  | @accepted acc row e t ha =>
    by_cases hk : key = claim.session
    · subst hk
      refine ⟨⟨id, fun hf => ?_⟩, fun hlen => ?_⟩
      · rw [settledFlag, ha.found, Option.map_some, ha.unsettled] at hf
        cases hf
      · rw [setTicket_evidence, pushEvidence_evidence, if_pos rfl] at hlen
        simp at hlen
    · have ht : ((db.pushEvidence claim.session e).setTicket claim.session t).tickets key =
          db.tickets key := by
        rw [setTicket_tickets, if_neg hk, pushEvidence_tickets]
      refine ⟨⟨id, fun _ => ⟨ht, ?_⟩⟩, fun _ => mark_congr ht⟩
      rw [setTicket_evidence, pushEvidence_evidence, if_neg hk]
  | @refused r row e hrow hset _ =>
    refine ⟨⟨id, fun hf => ⟨rfl, ?_⟩⟩, stillMark_of_tickets rfl⟩
    rw [pushEvidence_evidence, if_neg]
    rintro rfl
    rw [settledFlag, hrow, Option.map_some, hset] at hf
    cases hf
  | unchanged => exact ⟨.of_rows id rfl rfl, stillMark_of_tickets rfl⟩

theorem openRecord_steady {record : SessionRecord} (h : openRecord db record = .ok db') :
    Steady key db db' ∧ StillMark key db db' := by
  obtain ⟨d, -, -, -, rfl⟩ := openRecord_eq_ok h
  refine ⟨.of_rows ?_ rfl rfl, stillMark_of_tickets rfl⟩
  intro hf
  rw [settledFlag, setSession_sessions] at hf
  split_ifs at hf
  · cases hf
  · exact hf

theorem markChainVerified_eq_ok (h : markChainVerified db session = .ok db') :
    ∃ row, db.sessions session = some row ∧
      db' = db.setSession session { row with chainVerified := true } := by
  unfold markChainVerified at h
  split at h
  · rename_i row hrow
    simp only [pure_eq_ok] at h
    exact ⟨row, hrow, h.symm⟩
  · cases h

theorem markChainVerified_steady (h : markChainVerified db session = .ok db') :
    Steady key db db' ∧ StillMark key db db' := by
  obtain ⟨row, hrow, rfl⟩ := markChainVerified_eq_ok h
  refine ⟨.of_rows ?_ rfl rfl, stillMark_of_tickets rfl⟩
  intro hf
  rw [settledFlag, setSession_sessions] at hf
  split_ifs at hf with hk
  · rw [settledFlag, hk, hrow]
    exact hf
  · exact hf

theorem markSettled_tables : (markSettled db session).tickets = db.tickets ∧
    (markSettled db session).evidence = db.evidence := by
  unfold markSettled markSessionSettled
  split
  · split_ifs <;> exact ⟨rfl, rfl⟩
  · exact ⟨rfl, rfl⟩

theorem markSettled_other (hk : key ≠ session) :
    settledFlag (markSettled db session) key = settledFlag db key := by
  unfold markSettled markSessionSettled
  split
  · split_ifs
    · rfl
    · rw [settledFlag, setSession_sessions, if_neg hk]
      rfl
  · rfl

end Tables

/-! ### Snapshots -/

/-- What every step keeps of one session: the store grows, the mark moves only
with the log, and the root moves only with the settled amount. -/
structure Follows (rt : Runtime) (key : Pubkey) (s s' : Shared) : Prop where
  grows : Grows s.db s'.db
  still : StillMark key s.db s'.db
  chain : ∀ x, sessionAt rt s.ledger key = some x → ∃ x', sessionAt rt s'.ledger key = some x' ∧
    x.cumulativeSettled.toNat ≤ x'.cumulativeSettled.toNat ∧
    (x'.cumulativeSettled.toNat = x.cumulativeSettled.toNat →
      ∀ root, committedRoot rt s.ledger key = some root →
        committedRoot rt s'.ledger key = some root)

section Effects
variable {cfg : Config} {g : Desk cfg} {l : DeskLabel cfg} {s s' : Shared} {key : Pubkey}

theorem Follows.of_ledger (hl : s'.ledger = s.ledger) (hg : Grows s.db s'.db)
    (hs : StillMark key s.db s'.db) : Follows cfg.rt key s s' := by
  refine ⟨hg, hs, ?_⟩
  intro x hx
  rw [hl]
  exact ⟨x, hx, le_rfl, fun _ root hroot => hroot⟩

theorem Follows.of_outcome {i : EscrowProgram.Label} (hd : s'.db = s.db)
    (h : Outcome cfg.rt s.ledger i s'.ledger) : Follows cfg.rt key s s' := by
  refine ⟨?_, ?_, fun x hx => committedRoot_outcome h hx⟩
  · rw [hd]
    exact .refl _
  · intro _
    rw [hd]

/-- The step of the program behind an executed transaction. -/
theorem execTransaction_outcome (tx : SettleTransaction cfg.rt) :
    Outcome cfg.rt s.ledger (.call (tx.call s.clock)) (execTransaction cfg s tx).ledger :=
  step_outcome (.call tx.settler.signer)

theorem called_outcome {signer : Keypair cfg.rt} {c : Call} {L : EscrowLedger}
    (h : c.signer = signer.pubkey) : Outcome cfg.rt L (.call c) (apply cfg.rt L c) := by
  refine step_outcome (.call ?_)
  rw [h]
  exact signer.signer

theorem follows_effect (h : Effect cfg g l s') : Follows cfg.rt key g.shared s' := by
  cases h with
  | quiet hdb hl _ =>
    refine .of_ledger hl ?_ ?_
    · rw [hdb]
      exact .refl _
    · intro _
      rw [hdb]
  | admitted ha => exact .of_ledger rfl ha.grows (admit_steady ha).2
  | opened _ _ hok => exact .of_ledger rfl (openRecord_grows hok) (openRecord_steady hok).2
  | flagged _ _ _ hok =>
    exact .of_ledger rfl (markChainVerified_grows hok) (markChainVerified_steady hok).2
  | marked _ _ _ =>
    exact .of_ledger rfl markSettled_grows (stillMark_of_tickets markSettled_tables.1)
  | @executed _ _ _ tx _ _ => exact .of_outcome rfl (execTransaction_outcome tx)
  | called hsig _ => exact .of_outcome rfl (called_outcome hsig)
  | external hx => exact .of_outcome rfl (.external hx)

end Effects

section Snapshots
variable (cfg : Config)

/-- The commitment is the root of the first entries of the log. -/
def RootOf (db : Database) (key : Pubkey) (c : Commitment) : Prop :=
  c.entries ≤ (loadEvidenceLeaves db key).length ∧
    c.root = merkleRoot cfg.rt.sha256 ((loadEvidenceLeaves db key).take c.entries)

/-- The amount was the mark at some time after the commitment was made. -/
def AmountOf (db : Database) (key : Pubkey) (c : Commitment) (amount : UInt64) : Prop :=
  amount.toNat ≤ db.mark key ∧
    ((loadEvidenceLeaves db key).length = c.entries → amount.toNat = db.mark key)

/-- The transaction succeeded, and a later one would have settled more. -/
def OnChain (L : EscrowLedger) (tx : SettleTransaction cfg.rt) : Prop :=
  ∃ x, sessionAt cfg.rt L tx.session = some x ∧
    tx.claim.cumulativeAmount.toNat ≤ x.cumulativeSettled.toNat ∧
    (x.cumulativeSettled.toNat = tx.claim.cumulativeAmount.toNat →
      committedRoot cfg.rt L tx.session = some tx.merkleRoot)

/-- A transaction carries the snapshot of the request that built it. -/
structure Carries (db : Database) (r : Request cfg.rt) (c : Commitment)
    (tx : SettleTransaction cfg.rt) : Prop where
  kind : r.kind = .settle tx.session
  root : RootOf cfg db tx.session c
  amount : AmountOf db tx.session c tx.claim.cumulativeAmount
  committed : tx.merkleRoot = c.root

/-- What the local variables of a settlement request say about the present. -/
def Snapshot (s : Shared) (r : Request cfg.rt) : Prop :=
  match r.stage with
  | .rooted c => ∀ key, r.kind = .settle key → RootOf cfg s.db key c
  | .loaded c _ highest => ∀ key, r.kind = .settle key →
      RootOf cfg s.db key c ∧ AmountOf s.db key c highest.claim.cumulativeAmount
  | .assigned c _ highest _ => ∀ key, r.kind = .settle key →
      RootOf cfg s.db key c ∧ AmountOf s.db key c highest.claim.cumulativeAmount
  | .submitted c tx => Carries cfg s.db r c tx
  | .abandoned c tx => Carries cfg s.db r c tx
  | .landed c tx => Carries cfg s.db r c tx ∧ OnChain cfg s.ledger tx
  | .confirmed c tx => Carries cfg s.db r c tx ∧ OnChain cfg s.ledger tx
  | _ => True

end Snapshots

section Stability
variable {cfg : Config} {s s' : Shared} {r : Request cfg.rt} {key : Pubkey} {c : Commitment}
variable {amount : UInt64} {tx : SettleTransaction cfg.rt}

theorem leaves_grow (h : Grows s.db s'.db) (key : Pubkey) :
    loadEvidenceLeaves s.db key <+: loadEvidenceLeaves s'.db key := (h.log key).map _

theorem RootOf.follows (h : RootOf cfg s.db key c) (hg : Grows s.db s'.db) :
    RootOf cfg s'.db key c := by
  obtain ⟨rest, hrest⟩ := leaves_grow hg key
  unfold RootOf
  rw [← hrest, List.length_append, List.take_append_of_le_length h.1]
  exact ⟨h.1.trans (Nat.le_add_right _ _), h.2⟩

theorem AmountOf.follows (h : AmountOf s.db key c amount) (hr : RootOf cfg s.db key c)
    (hf : Follows cfg.rt key s s') : AmountOf s'.db key c amount := by
  refine ⟨h.1.trans (hf.grows.mark key), ?_⟩
  intro hlen
  have hle := (leaves_grow hf.grows key).length_le
  have hentries := hr.1
  have hsame : (loadEvidenceLeaves s.db key).length = c.entries := by omega
  have hstill : (s'.db.evidence key).length = (s.db.evidence key).length := by
    simp only [loadEvidenceLeaves, List.length_map] at hlen hsame
    omega
  rw [hf.still hstill]
  exact h.2 hsame

theorem Carries.follows (h : Carries cfg s.db r c tx) (hf : Follows cfg.rt tx.session s s') :
    Carries cfg s'.db r c tx :=
  ⟨h.kind, h.root.follows hf.grows, h.amount.follows h.root hf, h.committed⟩

theorem OnChain.follows (h : OnChain cfg s.ledger tx) (hf : Follows cfg.rt tx.session s s') :
    OnChain cfg s'.ledger tx := by
  obtain ⟨x, hx, hle, hroot⟩ := h
  obtain ⟨x', hx', hle', hkept⟩ := hf.chain x hx
  refine ⟨x', hx', hle.trans hle', ?_⟩
  intro heq
  exact hkept (by omega) _ (hroot (by omega))

theorem Snapshot.follows (h : Snapshot cfg s r) (hf : ∀ key, Follows cfg.rt key s s') :
    Snapshot cfg s' r := by
  unfold Snapshot at h ⊢
  split at h
  · exact fun key hk => (h key hk).follows (hf key).grows
  · intro key hk
    obtain ⟨hr, ha⟩ := h key hk
    exact ⟨hr.follows (hf key).grows, ha.follows hr (hf key)⟩
  · intro key hk
    obtain ⟨hr, ha⟩ := h key hk
    exact ⟨hr.follows (hf key).grows, ha.follows hr (hf key)⟩
  · exact h.follows (hf _)
  · exact h.follows (hf _)
  · exact ⟨h.1.follows (hf _), h.2.follows (hf _)⟩
  · exact ⟨h.1.follows (hf _), h.2.follows (hf _)⟩
  · trivial

theorem rootOf_commitmentOf : RootOf cfg s.db key (commitmentOf cfg s.db key) := by
  refine ⟨le_rfl, ?_⟩
  simp only [commitmentOf, List.take_length]

/-- The claim of a record that is read now is the mark. -/
theorem amountOf_getRecord {record : SessionRecord} {highest : SignedClaim}
    (hget : getRecord s.db key = .ok record) (hh : record.highestClaim = some highest) :
    AmountOf s.db key c highest.claim.cumulativeAmount := by
  obtain ⟨row, -, hl⟩ := getRecord_loaded hget
  rw [(getRecord_highestClaim hget hh).2]
  exact ⟨hl.mark.le, fun _ => hl.mark⟩

theorem snapshot_next {stage : Stage cfg.rt} (h : Next cfg s r s' stage) (hr : Snapshot cfg s r) :
    Snapshot cfg s' { r with stage := stage } := by
  cases h with
  | rooted _ hk =>
    intro key hkey
    obtain rfl : _ = key := Kind.settle.inj (hk.symm.trans hkey)
    exact rootOf_commitmentOf
  | loaded hstage hk hget hh =>
    simp only [Snapshot, hstage] at hr
    intro key hkey
    obtain rfl : _ = key := Kind.settle.inj (hk.symm.trans hkey)
    exact ⟨hr _ hk, amountOf_getRecord hget hh⟩
  | assigned hstage =>
    simp only [Snapshot, hstage] at hr
    exact hr
  | @submitted session c record highest settler tx hstage hk hses hclaim hroot =>
    simp only [Snapshot, hstage] at hr
    subst hses
    obtain ⟨h₁, h₂⟩ := hr _ hk
    rw [← hclaim] at h₂
    exact ⟨hk, h₁, h₂, hroot⟩
  | landed hstage hok =>
    simp only [Snapshot, hstage] at hr
    obtain ⟨x, hx, hamount, hroot⟩ := settled_execute hok
    exact ⟨⟨hr.kind, hr.root, hr.amount, hr.committed⟩, x, hx, by rw [hamount], fun _ => hroot⟩
  | confirmed hstage =>
    simp only [Snapshot, hstage] at hr
    exact ⟨⟨hr.1.kind, hr.1.root, hr.1.amount, hr.1.committed⟩, hr.2⟩
  | abandoned hstage =>
    simp only [Snapshot, hstage] at hr
    exact ⟨hr.kind, hr.root, hr.amount, hr.committed⟩
  | idle => exact hr
  | _ => trivial

theorem snapshot_step {g g' : Desk cfg} {l : DeskLabel cfg} (h : DeskStep cfg g l g')
    (hg : Each (Snapshot cfg) g) : Each (Snapshot cfg) g' := by
  have hf := fun key => @follows_effect _ _ _ _ key (desk_effect h)
  refine Step.each h hg ?_ ?_ (fun _ _ _ hx => hx.follows hf)
  · intro r ha
    unfold Snapshot
    rw [show r.stage = .received from ha]
    trivial
  · intro n r r' _ _ hm hr
    obtain ⟨he, hn⟩ := move_next hm
    rw [he]
    exact snapshot_next hn hr

end Stability

/-! ### The flag and the chain -/

/-- Settlements of the session come from the handler. -/
def HandlerSettles {cfg : Config} (key : Pubkey) : DeskLabel cfg → Prop
  | .outside (.call _ (.settleSession _ _ a _)) => a.session ≠ key
  | _ => True

/-- The flag a label would set, with the snapshot behind it. -/
def marking? {cfg : Config} (g : Desk cfg) :
    DeskLabel cfg → Option (Pubkey × Commitment × SettleTransaction cfg.rt)
  | .advance n =>
    match g.requests[n]? with
    | some r =>
      match r.stage, r.kind with
      | .confirmed c tx, .settle session => some (session, c, tx)
      | _, _ => none
    | none => none
  | _ => none

/-- The handler finds the mark at the amount it settled. -/
def AmountCurrent {cfg : Config} (key : Pubkey) (g : Desk cfg) (l : DeskLabel cfg) : Prop :=
  ∀ m ∈ marking? g l, m.1 = key →
    m.2.2.claim.cumulativeAmount.toNat = g.shared.db.mark key

/-- The handler finds the log as long as when it read the leaves. -/
def LogCurrent {cfg : Config} (key : Pubkey) (g : Desk cfg) (l : DeskLabel cfg) : Prop :=
  ∀ m ∈ marking? g l, m.1 = key → m.2.1.entries = (g.shared.db.evidence key).length

instance {cfg : Config} (key : Pubkey) : (l : DeskLabel cfg) → Decidable (HandlerSettles key l)
  | .outside (.call _ (.settleSession _ _ a _)) => inferInstanceAs (Decidable (a.session ≠ key))
  | .outside (.call _ (.openSession _ _ _)) => isTrue trivial
  | .outside (.call _ (.refundSession _ _)) => isTrue trivial
  | .outside (.admitClaim _ _) => isTrue trivial
  | .outside (.external _) => isTrue trivial
  | .outside (.tick _) => isTrue trivial
  | .arrive _ => isTrue trivial
  | .advance _ => isTrue trivial

instance {cfg : Config} (key : Pubkey) (g : Desk cfg) (l : DeskLabel cfg) :
    Decidable (AmountCurrent key g l) :=
  inferInstanceAs (Decidable (∀ m ∈ marking? g l, m.1 = key → _))

instance {cfg : Config} (key : Pubkey) (g : Desk cfg) (l : DeskLabel cfg) :
    Decidable (LogCurrent key g l) :=
  inferInstanceAs (Decidable (∀ m ∈ marking? g l, m.1 = key → _))

/-- The invariant of a session that only the handler settles. -/
structure Tracked (cfg : Config) (key : Pubkey) (g : Desk cfg) : Prop where
  snapshots : Each (Snapshot cfg) g
  bounded : ∀ x, sessionAt cfg.rt g.shared.ledger key = some x →
    x.cumulativeSettled.toNat ≤ g.shared.db.mark key

/-- A flagged session is settled at its mark. -/
def FlagAmount (rt : Runtime) (key : Pubkey) (s : Shared) : Prop :=
  settledFlag s.db key = some true → ∃ x, sessionAt rt s.ledger key = some x ∧
    x.cumulativeSettled.toNat = s.db.mark key

/-- And its receipt carries the root of its whole log. -/
def FlagRoot (rt : Runtime) (key : Pubkey) (s : Shared) : Prop :=
  settledFlag s.db key = some true → ∃ x, sessionAt rt s.ledger key = some x ∧
    x.cumulativeSettled.toNat = s.db.mark key ∧
    committedRoot rt s.ledger key = some (merkleRoot rt.sha256 (loadEvidenceLeaves s.db key))

section Flags
variable {cfg : Config} {g g' : Desk cfg} {l : DeskLabel cfg} {s' : Shared} {key : Pubkey}

theorem bounded_outcome {i : EscrowProgram.Label} {L L' : EscrowLedger} {mark : ℕ}
    (h : Outcome cfg.rt L i L')
    (hold : ∀ x, sessionAt cfg.rt L key = some x → x.cumulativeSettled.toNat ≤ mark)
    (hnew : ∀ now sysvar a args, i = .call (.settleSession now sysvar a args) → a.session = key →
      args.cumulativeAmount.toNat ≤ mark) :
    ∀ x, sessionAt cfg.rt L' key = some x → x.cumulativeSettled.toNat ≤ mark := by
  intro x' hx'
  rcases settled_outcome h hx' with ⟨x, hx, he⟩ | hz | ⟨now, sysvar, a, args, hi, ha, he⟩
  · rw [he]
    exact hold x hx
  · rw [hz]
    exact Nat.zero_le _
  · rw [he]
    exact hnew now sysvar a args hi ha

theorem bounded_effect (h : Effect cfg g l s') (ht : Tracked cfg key g)
    (hd : HandlerSettles key l) :
    ∀ x, sessionAt cfg.rt s'.ledger key = some x → x.cumulativeSettled.toNat ≤ s'.db.mark key := by
  have hf := @follows_effect _ _ _ _ key h
  have hmark := hf.grows.mark key
  cases h with
  | @executed n r c tx hr hstage =>
    have hs := ht.snapshots n r hr
    have hc : Carries cfg g.shared.db r c tx := by
      unfold Snapshot at hs
      rcases hstage with hstage | hstage
      · simpa only [hstage] using hs
      · simpa only [hstage] using hs
    refine bounded_outcome (execTransaction_outcome tx) ht.bounded ?_
    intro now sysvar a args hi ha
    rw [SettleTransaction.call] at hi
    cases hi
    rw [← ha]
    exact hc.amount.1
  | @called signer c hsig _ =>
    refine bounded_outcome (called_outcome hsig) ht.bounded ?_
    intro now sysvar a args hi ha
    cases hi
    exact absurd ha hd
  | external hx =>
    refine bounded_outcome (.external hx) ht.bounded ?_
    intro now sysvar a args hi
    cases hi
  | quiet hdb hl _ =>
    intro x hx
    rw [hl] at hx
    exact (ht.bounded x hx).trans hmark
  | _ =>
    intro x hx
    exact (ht.bounded x hx).trans hmark

theorem tracked_step (h : DeskStep cfg g l g') (ht : Tracked cfg key g)
    (hd : HandlerSettles key l) : Tracked cfg key g' :=
  ⟨snapshot_step h ht.snapshots, bounded_effect (desk_effect h) ht hd⟩

theorem tracked_initial (h : Initial cfg g) : Tracked cfg key g := by
  refine ⟨.of_idle h.idle, ?_⟩
  intro x hx
  exact absurd (sessionAt_eq_some.mp hx).1 (h.ledger.owned key)

/-- A step sets no flag on the session, or it is the handler's last. -/
theorem steady_effect (h : Effect cfg g l s') : Steady key g.shared.db s'.db ∨
    ∃ n r c tx, l = .advance n ∧ g.requests[n]? = some r ∧ r.stage = .confirmed c tx ∧
      r.kind = .settle key ∧ s' = { g.shared with db := markSettled g.shared.db key } := by
  cases h with
  | quiet hdb _ _ =>
    left
    rw [hdb]
    exact .of_rows id rfl rfl
  | admitted ha => exact .inl (admit_steady ha).1
  | opened _ _ hok => exact .inl (openRecord_steady hok).1
  | flagged _ _ _ hok => exact .inl (markChainVerified_steady hok).1
  | @marked n r c tx session hr hstage hk =>
    by_cases hkey : key = session
    · subst hkey
      exact .inr ⟨n, r, c, tx, rfl, hr, hstage, hk, rfl⟩
    · refine .inl (.of_rows ?_ markSettled_tables.1 markSettled_tables.2)
      rw [markSettled_other hkey]
      exact id
  | executed _ _ => exact .inl (.of_rows id rfl rfl)
  | called _ _ => exact .inl (.of_rows id rfl rfl)
  | external _ => exact .inl (.of_rows id rfl rfl)

/-- A flagged session after a step that sets no flag on it. -/
theorem flag_steady (h : Effect cfg g l s') (hs : Steady key g.shared.db s'.db)
    (hb : ∀ x, sessionAt cfg.rt s'.ledger key = some x → x.cumulativeSettled.toNat ≤ s'.db.mark key)
    (hflag : settledFlag s'.db key = some true) {x : Session}
    (hx : sessionAt cfg.rt g.shared.ledger key = some x)
    (hmark : x.cumulativeSettled.toNat = g.shared.db.mark key) :
    loadEvidenceLeaves s'.db key = loadEvidenceLeaves g.shared.db key ∧
    ∃ x', sessionAt cfg.rt s'.ledger key = some x' ∧
      x'.cumulativeSettled.toNat = s'.db.mark key ∧
      ∀ root, committedRoot cfg.rt g.shared.ledger key = some root →
        committedRoot cfg.rt s'.ledger key = some root := by
  obtain ⟨htickets, hlog⟩ := hs.frozen (hs.backwards hflag)
  have hsame : s'.db.mark key = g.shared.db.mark key := mark_congr htickets
  obtain ⟨x', hx', hle, hkept⟩ := (@follows_effect _ _ _ _ key h).chain x hx
  have hle' := hb x' hx'
  refine ⟨?_, x', hx', by omega, hkept (by omega)⟩
  unfold loadEvidenceLeaves
  rw [hlog]

/-- A confirmed settlement whose amount is still the mark. -/
theorem confirmed_current {n : ℕ} {r : Request cfg.rt} {c : Commitment}
    {tx : SettleTransaction cfg.rt} (ht : Tracked cfg key g) (hr : g.requests[n]? = some r)
    (hstage : r.stage = .confirmed c tx) (hk : r.kind = .settle key)
    (hmark : tx.claim.cumulativeAmount.toNat = g.shared.db.mark key) :
    ∃ x, sessionAt cfg.rt g.shared.ledger key = some x ∧
      x.cumulativeSettled.toNat = g.shared.db.mark key ∧
      committedRoot cfg.rt g.shared.ledger key = some tx.merkleRoot := by
  have hs := ht.snapshots n r hr
  simp only [Snapshot, hstage] at hs
  obtain ⟨hcarries, x, hx, hle, hroot⟩ := hs
  obtain rfl : key = tx.session := Kind.settle.inj (hk.symm.trans hcarries.kind)
  have hb := ht.bounded x hx
  exact ⟨x, hx, by omega, hroot (by omega)⟩

theorem marking?_eq {n : ℕ} {r : Request cfg.rt} {c : Commitment} {tx : SettleTransaction cfg.rt}
    (hr : g.requests[n]? = some r) (hstage : r.stage = .confirmed c tx)
    (hk : r.kind = .settle key) : marking? g (.advance n) = some (key, c, tx) := by
  simp only [marking?, hr, hstage, hk]

theorem flagAmount_step (h : DeskStep cfg g l g') (ht : Tracked cfg key g)
    (hd : HandlerSettles key l) (hc : AmountCurrent key g l)
    (hf : FlagAmount cfg.rt key g.shared) : FlagAmount cfg.rt key g'.shared := by
  intro hflag
  have he := desk_effect h
  rcases @steady_effect _ _ _ _ key he with hs | ⟨n, r, c, tx, rfl, hr, hstage, hk, hg'⟩
  · obtain ⟨x, hx, hmark⟩ := hf (hs.backwards hflag)
    obtain ⟨-, x', hx', hmark', -⟩ := flag_steady he hs (bounded_effect he ht hd) hflag hx hmark
    exact ⟨x', hx', hmark'⟩
  · obtain ⟨x, hx, hmark, -⟩ := confirmed_current ht hr hstage hk
      (hc _ (marking?_eq hr hstage hk) rfl)
    rw [hg']
    refine ⟨x, hx, hmark.trans ?_⟩
    exact (mark_congr (congrFun markSettled_tables.1 key)).symm

theorem flagRoot_step (h : DeskStep cfg g l g') (ht : Tracked cfg key g)
    (hd : HandlerSettles key l) (hc : LogCurrent key g l)
    (hf : FlagRoot cfg.rt key g.shared) : FlagRoot cfg.rt key g'.shared := by
  intro hflag
  have he := desk_effect h
  rcases @steady_effect _ _ _ _ key he with hs | ⟨n, r, c, tx, rfl, hr, hstage, hk, hg'⟩
  · obtain ⟨x, hx, hmark, hroot⟩ := hf (hs.backwards hflag)
    obtain ⟨hleaves, x', hx', hmark', hkept⟩ :=
      flag_steady he hs (bounded_effect he ht hd) hflag hx hmark
    refine ⟨x', hx', hmark', ?_⟩
    rw [hleaves]
    exact hkept _ hroot
  · have hentries : c.entries = (g.shared.db.evidence key).length :=
      hc _ (marking?_eq hr hstage hk) rfl
    have hs := ht.snapshots n r hr
    simp only [Snapshot, hstage] at hs
    obtain ⟨hcarries, -⟩ := hs
    obtain rfl : key = tx.session := Kind.settle.inj (hk.symm.trans hcarries.kind)
    have hlen : (loadEvidenceLeaves g.shared.db tx.session).length = c.entries := by
      rw [hentries]
      exact List.length_map _
    obtain ⟨x, hx, hmark, hroot⟩ := confirmed_current ht hr hstage hk (hcarries.amount.2 hlen)
    have hall : c.root = merkleRoot cfg.rt.sha256 (loadEvidenceLeaves g.shared.db tx.session) := by
      rw [hcarries.root.2, ← hlen, List.take_length]
    rw [hg']
    refine ⟨x, hx, hmark.trans ?_, ?_⟩
    · exact (mark_congr (congrFun markSettled_tables.1 _)).symm
    · simp only [loadEvidenceLeaves, markSettled_tables.2] at hall ⊢
      rw [← hall, ← hcarries.committed]
      exact hroot

theorem flag_initial (h : Initial cfg g) : settledFlag g.shared.db key ≠ some true := by
  rw [h.tables]
  exact nofun

theorem flag_of_getRecord {record : SessionRecord} {db : Database}
    (hget : getRecord db key = .ok record) (hs : record.isSettled = true) :
    settledFlag db key = some true := by
  obtain ⟨row, -, hl⟩ := getRecord_loaded hget
  rw [settledFlag, hl.found, Option.map_some, ← hl.settled, hs]

end Flags

/-- In every run in which the handler sets the flag only while the mark is the
amount it settled, a settled record has its accepted total settled on chain. -/
theorem settled_record_amount {cfg : Config} {key : Pubkey} {g₀ g : Desk cfg}
    {h : History (Desk cfg) (DeskLabel cfg)} {record : SessionRecord}
    (hr : Run (DeskStep cfg) g₀ h g) (h₀ : Initial cfg g₀)
    (hd : ∀ t ∈ h, HandlerSettles key t.label) (hc : ∀ t ∈ h, AmountCurrent key t.before t.label)
    (hget : getRecord g.shared.db key = .ok record) (hs : record.isSettled = true) :
    ∃ s, sessionAt cfg.rt g.shared.ledger key = some s ∧
      s.cumulativeSettled = record.cumulativeAccepted := by
  have hinv : Tracked cfg key g ∧ FlagAmount cfg.rt key g.shared := by
    refine hr.invariant (I := fun g => Tracked cfg key g ∧ FlagAmount cfg.rt key g.shared)
      (C := fun g l => HandlerSettles key l ∧ AmountCurrent key g l) ?_
      ⟨tracked_initial h₀, fun hf => absurd hf (flag_initial h₀)⟩ (fun t ht => ⟨hd t ht, hc t ht⟩)
    rintro g l g' ⟨ht, hf⟩ ⟨hd, hc⟩ hs
    exact ⟨tracked_step hs ht hd, flagAmount_step hs ht hd hc hf⟩
  obtain ⟨x, hx, hmark⟩ := hinv.2 (flag_of_getRecord hget hs)
  obtain ⟨row, -, hl⟩ := getRecord_loaded hget
  refine ⟨x, hx, ?_⟩
  rw [← UInt64.toNat_inj, hmark, hl.mark]

/-- In every run in which the handler sets the flag only while the log is the
one it read, a settled record's receipt carries the root of its whole log. -/
theorem settled_record_root {cfg : Config} {key : Pubkey} {g₀ g : Desk cfg}
    {h : History (Desk cfg) (DeskLabel cfg)} {record : SessionRecord}
    (hr : Run (DeskStep cfg) g₀ h g) (h₀ : Initial cfg g₀)
    (hd : ∀ t ∈ h, HandlerSettles key t.label) (hc : ∀ t ∈ h, LogCurrent key t.before t.label)
    (hget : getRecord g.shared.db key = .ok record) (hs : record.isSettled = true) :
    committedRoot cfg.rt g.shared.ledger key =
      some (MerkleTree.new cfg.rt.sha256 (loadEvidenceLeaves g.shared.db key)).root := by
  have hinv : Tracked cfg key g ∧ FlagRoot cfg.rt key g.shared := by
    refine hr.invariant (I := fun g => Tracked cfg key g ∧ FlagRoot cfg.rt key g.shared)
      (C := fun g l => HandlerSettles key l ∧ LogCurrent key g l) ?_
      ⟨tracked_initial h₀, fun hf => absurd hf (flag_initial h₀)⟩ (fun t ht => ⟨hd t ht, hc t ht⟩)
    rintro g l g' ⟨ht, hf⟩ ⟨hd, hc⟩ hs
    exact ⟨tracked_step hs ht hd, flagRoot_step hs ht hd hc hf⟩
  obtain ⟨x, -, -, hroot⟩ := hinv.2 (flag_of_getRecord hget hs)
  exact hroot

/-! ### A concrete deployment

The program's declared id, an agent with a key pair of its own, and the derived
addresses, signatures and hashes the real functions give. -/
namespace Office

def agent : Pubkey := sampleAgent

def provider : Pubkey := .filled 3
def authority : Pubkey := .filled 6
def mint : Pubkey := .filled 9
def agentToken : Pubkey := .filled 11
def sessionId : SessionId := Vector.replicate 16 7

def session : Pubkey := #v[212, 248, 198, 222, 94, 34, 64, 242, 238, 176, 30, 190, 178, 249, 101,
  33, 54, 88, 208, 125, 103, 234, 141, 89, 93, 222, 212, 79, 226, 237, 128, 201]

def vault : Pubkey := #v[167, 25, 194, 240, 138, 10, 36, 71, 142, 205, 16, 186, 191, 101, 42, 80,
  229, 81, 86, 151, 121, 200, 62, 234, 250, 128, 150, 216, 146, 152, 140, 222]

def record : Pubkey := #v[105, 91, 128, 224, 202, 175, 200, 183, 239, 117, 82, 223, 237, 221, 252,
  228, 245, 204, 1, 101, 39, 226, 149, 105, 82, 90, 196, 89, 235, 62, 131, 68]

/-- The provider's associated token account. -/
def providerToken : Pubkey := #v[158, 86, 106, 168, 5, 222, 96, 122, 76, 240, 85, 19, 97, 29, 21,
  205, 171, 15, 83, 50, 222, 22, 69, 253, 192, 26, 145, 196, 61, 132, 214, 223]

/-- The agent's signature over the claim for 100 with nonce 1 and expiry 4000. -/
def signature100 : Signature := #v[238, 193, 159, 223, 251, 15, 169, 37, 32, 196, 23, 62, 221, 117,
  171, 178, 176, 139, 27, 41, 150, 39, 159, 67, 156, 135, 119, 182, 195, 23, 125, 33, 198, 12, 175,
  164, 20, 238, 143, 159, 30, 43, 48, 201, 250, 208, 47, 116, 201, 170, 49, 108, 32, 90, 148, 228,
  55, 115, 127, 185, 95, 5, 1, 9]

/-- Over the claim for 500 with nonce 2 and expiry 4000. -/
def signature500 : Signature := #v[13, 7, 52, 227, 124, 185, 59, 255, 74, 245, 199, 26, 97, 130, 56,
  213, 31, 99, 107, 125, 190, 168, 22, 111, 53, 196, 7, 16, 161, 8, 19, 97, 84, 95, 121, 9, 234,
  198, 3, 41, 136, 219, 59, 87, 45, 129, 2, 97, 68, 40, 89, 40, 239, 72, 14, 208, 6, 110, 227, 206,
  9, 111, 44, 10]

def entry100 : Hash := #v[53, 130, 110, 251, 50, 42, 13, 246, 52, 157, 92, 172, 145, 79, 246, 111,
  181, 197, 191, 170, 38, 6, 188, 182, 208, 104, 11, 100, 13, 119, 142, 10]

def entry500 : Hash := #v[119, 62, 41, 239, 253, 41, 212, 41, 80, 237, 225, 167, 117, 236, 23, 29,
  255, 75, 7, 57, 229, 235, 148, 239, 108, 134, 158, 59, 248, 103, 186, 111]

def entryRefused : Hash := #v[72, 76, 16, 170, 118, 4, 125, 196, 207, 0, 22, 214, 56, 89, 99, 44,
  235, 17, 143, 145, 64, 250, 148, 210, 224, 8, 246, 37, 166, 239, 166, 204]

def pairRoot : Hash := #v[155, 202, 117, 116, 60, 153, 93, 184, 234, 50, 28, 79, 62, 5, 219, 205,
  109, 185, 68, 40, 159, 135, 233, 174, 111, 155, 6, 146, 0, 132, 117, 139]

def claimHash : Hash := #v[64, 22, 37, 152, 109, 2, 219, 18, 192, 189, 240, 180, 222, 74, 126, 108,
  91, 85, 13, 193, 126, 32, 142, 178, 208, 234, 74, 104, 85, 240, 127, 11]

def table : List (List UInt8 × Pubkey) :=
  [((sessionSeeds agent provider sessionId).flatten ++ [255], session),
    ((vaultSeeds session).flatten ++ [255], vault),
    ((settlementSeeds session).flatten ++ [255], record)]

def claim100 : Claim := ⟨session, 100, 1, 4000⟩
def claim500 : Claim := ⟨session, 500, 2, 4000⟩

def hashes : List (List UInt8 × Hash) :=
  [(zeroHash.toList ++ session.toList ++ u64LeBytes 100 ++ u64LeBytes 1 ++
      Decision.allowed.asStr, entry100),
    (entry100.toList ++ session.toList ++ u64LeBytes 500 ++ u64LeBytes 2 ++
      Decision.allowed.asStr, entry500),
    (entry100.toList ++ session.toList ++ u64LeBytes 100 ++ u64LeBytes 1 ++
      Decision.notMonotonic.asStr, entryRefused),
    (entry100.toList ++ entryRefused.toList, pairRoot),
    (claim100.signingBytes, claimHash)]

def sha256 (message : List UInt8) : Hash :=
  match hashes.find? fun e => e.1 = message with
  | some e => e.2
  | none => zeroHash

def runtime : Runtime := .ofTable agentpayId table sha256 (by decide +kernel) (by decide +kernel)
  agentpayId_ne_system agentpayId_ne_token

theorem signer_of_not_mem {k : Pubkey} (h : k ∉ table.map Prod.snd) : runtime.Signer k :=
  fun hp => h (Runtime.mem_of_programAddress_ofTable hp)

def agentKey : Keypair runtime := ⟨agent, signer_of_not_mem (by decide +kernel)⟩
def authorityKey : Keypair runtime := ⟨authority, signer_of_not_mem (by decide +kernel)⟩

def config : Config := ⟨runtime, true, true, some authorityKey, none, fun _ _ _ => providerToken⟩

def wallet : Account ProgramData := ⟨10 ^ 9, systemProgramId, .empty⟩

def accounts : List (Pubkey × Account ProgramData) :=
  [(agent, wallet), (provider, wallet), (authority, wallet),
    (mint, ⟨1461600, tokenProgramId, .mint 6⟩),
    (agentToken, ⟨2039280, tokenProgramId, .token ⟨mint, agent, 5000⟩⟩),
    (providerToken, ⟨2039280, tokenProgramId, .token ⟨mint, provider, 0⟩⟩)]

def start : Desk config := ⟨⟨.empty, ledgerOf accounts, 1000⟩, []⟩

theorem start_initial : Initial config start := by
  refine ⟨rfl, genesis_ledgerOf ?_ ?_, rfl⟩
  · decide +kernel
  · have hm : ∀ e ∈ accounts, e.1 ∉ table.map Prod.snd := by decide +kernel
    exact fun e he => signer_of_not_mem (hm e he)

/-- The agent escrows 1000 until 5000, the gateway opens the session, and at
2000 it admits the claim for 100. -/
def opening : List (DeskLabel config) :=
  [.outside (.admitClaim claim100 signature100), .outside (.tick 2000), .advance 0, .advance 0,
    .arrive ⟨.openSession session ⟨agent, provider, mint, 1000, 5000⟩, .received⟩,
    .outside (.call agentKey (.openSession 1000
      ⟨agent, provider, mint, session, vault, agentToken, tokenProgramId⟩
      ⟨sessionId, 1000, 5000, authority⟩))]

/-- A settlement from the request to the flag, undisturbed. -/
def undisturbed : History (Desk config) (DeskLabel config) × Desk config := playDesk config start
  ([.advance 1, .advance 1, .advance 1, .advance 1, .advance 1, .advance 1, .advance 1,
    .arrive ⟨.settle session, .received⟩] ++ opening)

/-- The claim for 500 is admitted after the handler read the one for 100. -/
def overtaken : History (Desk config) (DeskLabel config) × Desk config := playDesk config start
  ([.advance 1, .advance 1, .advance 1, .advance 1, .advance 1,
    .outside (.admitClaim claim500 signature500), .advance 1, .advance 1,
    .arrive ⟨.settle session, .received⟩] ++ opening)

/-- The claim for 100 is presented once more after the leaves were read. -/
def repeated : History (Desk config) (DeskLabel config) × Desk config := playDesk config start
  ([.advance 1, .advance 1, .advance 1, .advance 1, .advance 1, .advance 1,
    .outside (.admitClaim claim100 signature100), .advance 1,
    .arrive ⟨.settle session, .received⟩] ++ opening)

/-- The record of the session as later reads find it. -/
def stored (amount nonce : UInt64) (signature : Signature) : SessionRecord :=
  ⟨session, agent, provider, mint, 1000, 5000, amount, some nonce,
    some ⟨⟨session, amount, nonce, 4000⟩, signature⟩, true, true⟩

theorem undisturbed_current :
    getRecord undisturbed.2.shared.db session = .ok (stored 100 1 signature100) ∧
      ∀ t ∈ undisturbed.1, HandlerSettles session t.label ∧
        AmountCurrent session t.before t.label ∧ LogCurrent session t.before t.label := by
  decide +kernel

end Office

/-- A settlement of 100 that nothing overtakes. -/
theorem settled_record_amount_undisturbed :
    getRecord Office.undisturbed.2.shared.db Office.session =
        .ok (Office.stored 100 1 Office.signature100) ∧
      ∃ s, sessionAt Office.config.rt Office.undisturbed.2.shared.ledger Office.session = some s ∧
        s.cumulativeSettled = 100 := by
  have hrun : Run (DeskStep Office.config) Office.start Office.undisturbed.1 Office.undisturbed.2 :=
    playDesk_run _ _ _
  obtain ⟨hget, hcurrent⟩ := Office.undisturbed_current
  exact ⟨hget, settled_record_amount hrun Office.start_initial (fun t ht => (hcurrent t ht).1)
    (fun t ht => (hcurrent t ht).2.1) hget rfl⟩

/-- The claim for 500 is lost: the record is settled with 500 accepted, and the
chain settled 100. -/
theorem settlement_overtaken :
    Run (DeskStep Office.config) Office.start Office.overtaken.1 Office.overtaken.2 ∧
      Initial Office.config Office.start ∧
      (∀ t ∈ Office.overtaken.1, HandlerSettles Office.session t.label) ∧
      getRecord Office.overtaken.2.shared.db Office.session =
        .ok (Office.stored 500 2 Office.signature500) ∧
      (sessionAt Office.config.rt Office.overtaken.2.shared.ledger Office.session).map
        Session.cumulativeSettled = some 100 := by
  exact ⟨playDesk_run _ _ _, Office.start_initial, by decide +kernel⟩

/-- A settlement whose root covers the one entry of the log. -/
theorem settled_record_root_undisturbed :
    getRecord Office.undisturbed.2.shared.db Office.session =
        .ok (Office.stored 100 1 Office.signature100) ∧
      committedRoot Office.config.rt Office.undisturbed.2.shared.ledger Office.session =
        some (MerkleTree.new Office.config.rt.sha256
          (loadEvidenceLeaves Office.undisturbed.2.shared.db Office.session)).root := by
  have hrun : Run (DeskStep Office.config) Office.start Office.undisturbed.1 Office.undisturbed.2 :=
    playDesk_run _ _ _
  obtain ⟨hget, hcurrent⟩ := Office.undisturbed_current
  exact ⟨hget, settled_record_root hrun Office.start_initial (fun t ht => (hcurrent t ht).1)
    (fun t ht => (hcurrent t ht).2.2) hget rfl⟩

/-- A refused claim enters the log behind the handler's back: the committed root
is that of the first entry alone. -/
theorem root_misses_refused_claim :
    Run (DeskStep Office.config) Office.start Office.repeated.1 Office.repeated.2 ∧
      Initial Office.config Office.start ∧
      (∀ t ∈ Office.repeated.1, HandlerSettles Office.session t.label) ∧
      getRecord Office.repeated.2.shared.db Office.session =
        .ok (Office.stored 100 1 Office.signature100) ∧
      committedRoot Office.config.rt Office.repeated.2.shared.ledger Office.session =
        some Office.entry100 ∧
      (MerkleTree.new Office.config.rt.sha256
        (loadEvidenceLeaves Office.repeated.2.shared.db Office.session)).root = Office.pairRoot ∧
      Office.entry100 ≠ Office.pairRoot := by
  exact ⟨playDesk_run _ _ _, Office.start_initial, by decide +kernel⟩

end AgentPay.SettlementAgreement
