import AgentPay.AuditResponses
import AgentPay.LoneRequests
import AgentPay.SessionEvents
import AgentPay.SettlementAgreement

/-!
# A committed root never contradicts the log

The settlement handler commits the root of the leaves it read at first, and the log may
grow before the transaction lands and after. The log only grows, so the root on chain is
at every moment the root of its first entries, and each of these can be proved against the
chain.
-/
namespace AgentPay.CommittedPrefixes
open SolanaRuntime EscrowState EscrowProgram EscrowEffects EscrowInvariant SessionEvents
open GatewayClaims EvidenceLog EvidenceBinding SessionStore StoreRuns EvidenceRuns MerkleProofs
open SettlementRequests SettlementAgreement AuditResponses ClaimHeader RequestPool Fallible Runs

section Chain
variable {rt : Runtime} {L L' : EscrowLedger} {key : Pubkey} {root : Hash}

theorem committedRoot_eq : committedRoot rt L key =
    (receiptAt rt L key).map SettlementRecord.merkleRoot := by
  unfold committedRoot receiptAt
  rcases rt.findProgramAddress (settlementSeeds key) with _ | ⟨k, b⟩
  · rfl
  · rfl

/-- A root comes from a settlement of the session, or was there before. -/
theorem root_outcome {i : EscrowProgram.Label} (h : Outcome rt L i L')
    (hroot : committedRoot rt L' key = some root) : committedRoot rt L key = some root ∨
      ∃ now sysvar a args, i = .call (.settleSession now sysvar a args) ∧ a.session = key ∧
        args.merkleRoot = root := by
  rw [committedRoot_eq] at hroot ⊢
  cases h with
  | external hx =>
    left
    rwa [receiptAt_congr fun k _ _ => External.recordAt_eq hx k] at hroot
  | rejected _ => exact .inl hroot
  | opened hsig h =>
    left
    rwa [receiptAt_congr fun k b hf => Opened.recordAt h
      (session_ne_record h.derived (rt.derive_of_find hf)).symm
      (vault_ne_record h.vaultDerived (rt.derive_of_find hf)).symm] at hroot
  | @settled L' now sysvar a args s delta h =>
    obtain ⟨bump, hfind, hwritten⟩ := h.receiptWritten
    by_cases hk : a.session = key
    · subst hk
      right
      rw [receiptAt, hfind, Option.bind_some, recordAt_eq_some.mpr hwritten] at hroot
      exact ⟨now, sysvar, a, args, rfl, rfl, Option.some.inj hroot⟩
    · left
      rwa [receiptAt_congr fun k b hf => by
        have hd := rt.derive_of_find hf
        refine Settled.recordAt h ?_ (session_ne_record h.derived hd).symm
        rintro rfl
        exact hk (settlementSeeds_injective (rt.derive_of_find hfind) hd)] at hroot
  | refunded h =>
    left
    rwa [receiptAt_congr fun k b hf =>
      Refunded.recordAt h (session_ne_record h.derived (rt.derive_of_find hf)).symm] at hroot

end Chain

section Steps
variable {cfg : Config} {g g' : Desk cfg} {l : DeskLabel cfg} {s' : Shared} {key : Pubkey}

/-- The root is that of the first entries of the log. -/
def PrefixRoot (cfg : Config) (key : Pubkey) (s : Shared) (root : Hash) (n : ℕ) : Prop :=
  n ≤ (loadEvidenceLeaves s.db key).length ∧
    root = merkleRoot cfg.rt.sha256 ((loadEvidenceLeaves s.db key).take n)

/-- What the receipt of the session says is such a root. -/
def CoversPrefix (cfg : Config) (key : Pubkey) (s : Shared) : Prop :=
  ∀ root, committedRoot cfg.rt s.ledger key = some root → ∃ n, PrefixRoot cfg key s root n

theorem CoversPrefix.grow {s s' : Shared} (h : CoversPrefix cfg key s) (hg : Grows s.db s'.db)
    (hold : ∀ root, committedRoot cfg.rt s'.ledger key = some root →
      committedRoot cfg.rt s.ledger key = some root) : CoversPrefix cfg key s' := by
  intro root hroot
  obtain ⟨n, hn⟩ := h root (hold root hroot)
  have hc : RootOf cfg s.db key ⟨root, n⟩ := hn
  exact ⟨n, hc.follows hg⟩

theorem coversPrefix_effect (h : Effect cfg g l s') (ht : Each (Snapshot cfg) g)
    (hd : HandlerSettles key l) (hc : CoversPrefix cfg key g.shared) : CoversPrefix cfg key s' := by
  have hg := (@follows_effect _ _ _ _ key h).grows
  cases h with
  | @executed n r c tx hr hstage =>
    have hs := ht n r hr
    have hcarries : Carries cfg g.shared.db r c tx := by
      unfold Snapshot at hs
      rcases hstage with hstage | hstage
      · simpa only [hstage] using hs
      · simpa only [hstage] using hs
    intro root hroot
    rcases root_outcome (execTransaction_outcome tx) hroot with
      hold | ⟨now, sysvar, a, args, hi, ha, hargs⟩
    · exact hc root hold
    · rw [SettleTransaction.call] at hi
      cases hi
      have hsame : c.root = root := hcarries.committed.symm.trans hargs
      have hsession : tx.session = key := ha
      rw [← hsession, ← hsame]
      exact ⟨c.entries, hcarries.root⟩
  | @called signer c hsig _ =>
    refine hc.grow hg fun root hroot => ?_
    rcases root_outcome (called_outcome hsig) hroot with
      hold | ⟨now, sysvar, a, args, hi, ha, -⟩
    · exact hold
    · cases hi
      exact absurd ha hd
  | external hx =>
    refine hc.grow hg fun root hroot => ?_
    rcases root_outcome (.external hx) hroot with hold | ⟨now, sysvar, a, args, hi, -⟩
    · exact hold
    · cases hi
  | quiet hdb hl _ =>
    refine hc.grow hg fun root hroot => ?_
    rwa [hl] at hroot
  | _ => exact hc.grow hg fun root hroot => hroot

theorem intact_desk (h : DeskStep cfg g l g') (hi : Intact cfg.rt.sha256 g.shared.db) :
    Intact cfg.rt.sha256 g'.shared.db := by
  cases h with
  | arrive _ => exact hi
  | @advance s s' rs r r' n hr hm =>
    obtain ⟨-, hn⟩ := move_next hm
    generalize r'.stage = stage at hn
    cases hn with
    | saved _ hok => exact hi.openRecord hok
    | @flagged session db _ _ hok =>
      have he := hi.execute (.markChainVerified session)
      simp only [StoreRuns.execute, hok, Except.map, commit] at he
      exact he
    | marked => exact hi.markSettled
    | _ => exact hi
  | @outside s s' rs e ho =>
    cases ho with
    | @admitClaim claim signature db outcome hok =>
      have he := hi.execute (.admitClaim claim signature s.clock)
      simp only [StoreRuns.execute, hok, commit] at he
      exact he
    | _ => exact hi

/-- What holds of a session in every state while only the handler settles it. -/
structure Covered (cfg : Config) (key : Pubkey) (g : Desk cfg) : Prop where
  snapshots : Each (Snapshot cfg) g
  intact : Intact cfg.rt.sha256 g.shared.db
  covers : CoversPrefix cfg key g.shared

theorem covered_initial (h : Initial cfg g) : Covered cfg key g := by
  refine ⟨.of_idle h.idle, ?_, ?_⟩
  · rw [h.tables]
    exact intact_empty
  · intro root hroot
    obtain ⟨k, b, r, -, hr, -⟩ := committedRoot_eq_some.mp hroot
    exact absurd (recordAt_eq_some.mp hr).1 (h.ledger.owned k)

theorem covered_step (h : DeskStep cfg g l g') (hc : Covered cfg key g)
    (hd : HandlerSettles key l) : Covered cfg key g' :=
  ⟨snapshot_step h hc.snapshots, intact_desk h hc.intact,
    coversPrefix_effect (desk_effect h) hc.snapshots hd hc.covers⟩

theorem covered_run {g₀ : Desk cfg} {h : History (Desk cfg) (DeskLabel cfg)}
    (hr : Run (DeskStep cfg) g₀ h g) (h₀ : Initial cfg g₀)
    (hd : ∀ t ∈ h, HandlerSettles key t.label) : Covered cfg key g :=
  hr.invariant (C := fun _ l => HandlerSettles key l)
    (fun _ _ _ hc hd hs => covered_step hs hc hd) (covered_initial h₀) hd

end Steps

/-- A decision of the log with a path from it to a root, for both verifiers. -/
def ProvedTo (sha256 : List UInt8 → Hash) (leaf root : Hash) : Prop :=
  ∃ path, verifyProof sha256 leaf path root = true ∧
    (recomputeRoot sha256 (proofView leaf path)).2 = hex32 root

/-- The root on chain covers the first entries of the log as it is now. -/
structure Commits (cfg : Config) (key : Pubkey) (s : Shared) (root : Hash) (n : ℕ) : Prop where
  covers : PrefixRoot cfg key s root n
  proved : ∀ (i : ℕ) (h : i < (loadEvidenceLeaves s.db key).length), i < n →
    ProvedTo cfg.rt.sha256 (loadEvidenceLeaves s.db key)[i] root

theorem commits_of_prefix {cfg : Config} {key : Pubkey} {s : Shared} {root : Hash} {n : ℕ}
    (h : PrefixRoot cfg key s root n) : Commits cfg key s root n := by
  refine ⟨h, fun i hlt hi => ?_⟩
  have hlen : i < ((loadEvidenceLeaves s.db key).take n).length := by
    rw [List.length_take]
    omega
  obtain ⟨path, -, -, hpath⟩ := @proof_new cfg.rt.sha256 _ i hlen
  have hsame : path.foldl (climb cfg.rt.sha256) (loadEvidenceLeaves s.db key)[i] = root := by
    rw [h.2, merkleRoot, ← hpath, List.getElem_take]
  refine ⟨path, decide_eq_true hsame, ?_⟩
  rw [← hsame]
  exact recomputeFrom_nodeView 0 _ path

/-- In every run of the gateway and the chain in which a session is settled by the handler,
whatever root is on chain is that of its log's first entries, each of which can be proved
against it. -/
theorem committed_root_covers_prefix {cfg : Config} {key : Pubkey} {g₀ g : Desk cfg}
    {h : History (Desk cfg) (DeskLabel cfg)} {root : Hash} (hr : Run (DeskStep cfg) g₀ h g)
    (h₀ : Initial cfg g₀) (hd : ∀ t ∈ h, HandlerSettles key t.label)
    (hroot : committedRoot cfg.rt g.shared.ledger key = some root) :
    ∃ n, Commits cfg key g.shared root n := by
  obtain ⟨n, hn⟩ := (covered_run hr h₀ hd).covers root hroot
  exact ⟨n, commits_of_prefix hn⟩

/-- In the run where a refused claim enters the log after it was read. -/
theorem repeated_handled : committedRoot Office.config.rt Office.repeated.2.shared.ledger
      Office.session = some Office.entry100 ∧
    (∀ t ∈ Office.repeated.1, HandlerSettles Office.session t.label) ∧
    1 < (Office.repeated.2.shared.db.evidence Office.session).length := by
  decide +kernel

/-- The log of that run has two entries, and its first is under the root on chain. -/
theorem committed_root_covers_prefix_repeated :
    ∃ n, Commits Office.config Office.session Office.repeated.2.shared Office.entry100 n := by
  have hrun : Run (DeskStep Office.config) Office.start Office.repeated.1 Office.repeated.2 :=
    playDesk_run _ _ _
  exact committed_root_covers_prefix hrun Office.start_initial repeated_handled.2.1
    repeated_handled.1

end AgentPay.CommittedPrefixes
