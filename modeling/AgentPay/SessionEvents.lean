import AgentPay.EscrowConservation
import AgentPay.EventLogs

/-!
# The sessions as their events tell them

Each handler emits one event on success. The view below is what an indexer can
keep without reading an account: the terms of each session, its two counters
and the last receipt. Replaying the events of any run from its genesis gives
the same table as reading the sessions and receipts off the final ledger, and
the events of a run are always legal: one opening per session, settlements that
advance the total by what they transfer, refunds of all that is left.
-/
namespace AgentPay.SessionEvents
open SolanaRuntime EscrowState EscrowProgram EscrowEffects EscrowInvariant EscrowConservation
open EventLogs Fallible Runs

/-- The last settlement of a session, as its receipt shows it. -/
structure LastSettlement where
  settledAmount : UInt64
  merkleRoot : Hash
  settledAt : Int64
deriving DecidableEq

structure SessionView where
  agent : Pubkey
  provider : Pubkey
  settlementAuthority : Pubkey
  mint : Pubkey
  depositedTotal : UInt64
  expiresAt : Int64
  cumulativeSettled : UInt64
  refundedTotal : UInt64
  isSettled : Bool
  last : Option LastSettlement
deriving DecidableEq

abbrev SessionTable := Pubkey → Option SessionView

def SessionView.settle (v : SessionView) (amount : UInt64) (merkleRoot : Hash)
    (settledAt : Int64) : SessionView :=
  { v with
    cumulativeSettled := amount
    isSettled := true
    last := some ⟨amount, merkleRoot, settledAt⟩ }

def SessionView.refund (v : SessionView) (amount : UInt64) : SessionView :=
  { v with refundedTotal := v.refundedTotal + amount }

/-- What an observer does with one event. -/
def note : Event → SessionTable → SessionTable
  | .sessionOpened session agent provider settlementAuthority mint depositedTotal expiresAt, v =>
    Function.update v session (some ⟨agent, provider, settlementAuthority, mint, depositedTotal,
      expiresAt, 0, 0, false, none⟩)
  | .sessionSettled session _ cumulativeAmount _ merkleRoot settledAt, v =>
    Function.update v session
      ((v session).map fun x => x.settle cumulativeAmount merkleRoot settledAt)
  | .sessionRefunded session _ amount _ _, v =>
    Function.update v session ((v session).map fun x => x.refund amount)

/-- The events an observer of these sessions may see next. -/
def Admits (v : SessionTable) : Event → Prop
  | .sessionOpened session _ _ _ _ depositedTotal _ =>
    v session = none ∧ 0 < depositedTotal.toNat
  | .sessionSettled session provider cumulativeAmount transferred _ settledAt =>
    ∃ x, v session = some x ∧ provider = x.provider ∧ 0 < transferred.toNat ∧
      x.cumulativeSettled.toNat + transferred.toNat = cumulativeAmount.toNat ∧
      cumulativeAmount.toNat + x.refundedTotal.toNat ≤ x.depositedTotal.toNat ∧
      settledAt.toInt ≤ x.expiresAt.toInt + 30
  | .sessionRefunded session agent amount permissionless refundedAt =>
    ∃ x, v session = some x ∧ agent = x.agent ∧ 0 < amount.toNat ∧
      x.cumulativeSettled.toNat + x.refundedTotal.toNat + amount.toNat = x.depositedTotal.toNat ∧
      (permissionless = true ↔ x.expiresAt.toInt + 30 < refundedAt.toInt) ∧
      (permissionless = false → x.isSettled = true)

/-- The event a step wrote to the transaction log. -/
def emitted (rt : Runtime) (t : Transition EscrowLedger Label) : Option Event :=
  match t.label with
  | .call c => (execute rt t.before c).toOption.map Prod.snd
  | .external => none

def events (rt : Runtime) (h : History EscrowLedger Label) : List Event := entries (emitted rt) h

/-- The account at the receipt address of a session. -/
def receiptAt (rt : Runtime) (L : EscrowLedger) (session : Pubkey) : Option SettlementRecord :=
  (rt.findProgramAddress (settlementSeeds session)).bind fun p => recordAt rt L p.1

def SettlementRecord.last (r : SettlementRecord) : LastSettlement :=
  ⟨r.settledAmount, r.merkleRoot, r.settledAt⟩

def viewOf (s : Session) (r : Option SettlementRecord) : SessionView where
  agent := s.agent
  provider := s.provider
  settlementAuthority := s.settlementAuthority
  mint := s.mint
  depositedTotal := s.depositedTotal
  expiresAt := s.expiresAt
  cumulativeSettled := s.cumulativeSettled
  refundedTotal := s.refundedTotal
  isSettled := s.isSettled
  last := r.map SettlementRecord.last

/-- The same table read off the accounts. -/
def tableOf (rt : Runtime) (L : EscrowLedger) : SessionTable := fun key =>
  (sessionAt rt L key).map fun s => viewOf s (receiptAt rt L key)

section Receipts
variable {rt : Runtime} {L L' : EscrowLedger} {now : Int64} {k key : Pubkey}

theorem recordAt_of_data {d : AccountData ProgramData} (hd : (L k).data = d)
    (hn : ∀ r, d ≠ .program (.settlementRecord r)) : recordAt rt L k = none := by
  rcases h : recordAt rt L k with _ | r
  · rfl
  · exact absurd (hd.symm.trans (recordAt_eq_some.mp h).2) (hn r)

theorem recordAt_token {t : TokenAccount} (hd : (L k).data = .token t) : recordAt rt L k = none :=
  recordAt_of_data hd (fun r => by simp)

theorem recordAt_empty (hu : Unused L k) : recordAt rt L k = none :=
  recordAt_of_data hu.2 (fun r => by simp)

theorem External.recordAt_eq (hx : External rt L L') (k : Pubkey) :
    recordAt rt L' k = recordAt rt L k := by
  by_cases ho : (L k).owner = rt.programId
  · obtain ⟨ho', hd, -⟩ := hx.owned k ho
    exact Kept.recordAt ⟨ho'.trans ho.symm, hd⟩
  · have hl : recordAt rt L k = none := by simp [recordAt, ho]
    rw [hl]
    by_cases ho' : (L' k).owner = rt.programId
    · have hf := hx.foreign k ho ho'
      rcases hs : recordAt rt L' k with _ | r
      · rfl
      · rw [(recordAt_eq_some.mp hs).2] at hf
        cases hf
    · simp [recordAt, ho']

theorem Opened.recordAt {a : OpenAccounts} {args : OpenArgs} {s : Session}
    (h : Opened rt L L' now a args s) (hs : k ≠ a.session) (hv : k ≠ a.vault) :
    recordAt rt L' k = recordAt rt L k := by
  by_cases ht : k = a.agentTokenAccount
  · subst ht
    obtain ⟨t, ht, -, -, -, -, ht'⟩ := h.sourceDebited
    rw [recordAt_token ht, recordAt_token ht']
  · exact Kept.recordAt (h.frame k hs hv ht)

theorem Settled.recordAt {sysvar : ClaimMessage.InstructionsSysvar} {a : SettleAccounts}
    {args : SettleArgs} {s : Session} {delta : UInt64}
    (h : Settled rt L L' now sysvar a args s delta) (hr : k ≠ a.settlementRecord)
    (hs : k ≠ a.session) : recordAt rt L' k = recordAt rt L k := by
  by_cases hv : k = a.vault
  · subst hv
    obtain ⟨t, ht, -, -, -, -, ht'⟩ := h.vaultDebited
    rw [recordAt_token ht, recordAt_token ht']
  · by_cases hp : k = a.providerTokenAccount
    · subst hp
      obtain ⟨t, ht, -, -, -, ht'⟩ := h.payeeCredited
      rw [recordAt_token ht, recordAt_token ht']
    · exact Kept.recordAt (h.frame k hs hr hv hp)

theorem Refunded.recordAt {a : RefundAccounts} {s : Session} {remaining total : UInt64}
    (h : Refunded rt L L' now a s remaining total) (hs : k ≠ a.session) :
    recordAt rt L' k = recordAt rt L k := by
  by_cases hv : k = a.vault
  · subst hv
    obtain ⟨t, ht, -, -, -, -, ht'⟩ := h.vaultDebited
    rw [recordAt_token ht, recordAt_token ht']
  · by_cases hp : k = a.agentTokenAccount
    · subst hp
      obtain ⟨t, ht, -, -, -, ht'⟩ := h.payeeCredited
      rw [recordAt_token ht, recordAt_token ht']
    · exact Kept.recordAt (h.frame k hs hv hp)

/-- Receipts change only where the account at their address does. -/
theorem receiptAt_congr (h : ∀ k b, rt.findProgramAddress (settlementSeeds key) = some (k, b) →
    recordAt rt L' k = recordAt rt L k) : receiptAt rt L' key = receiptAt rt L key := by
  unfold receiptAt
  rcases hf : rt.findProgramAddress (settlementSeeds key) with _ | ⟨k, b⟩
  · rfl
  · exact h k b hf

/-- A session that does not exist has no receipt either. -/
theorem receiptAt_dormant (hI : Sound rt L) (hn : sessionAt rt L key = none) :
    receiptAt rt L key = none := by
  unfold receiptAt
  rcases hf : rt.findProgramAddress (settlementSeeds key) with _ | ⟨k, b⟩
  · rfl
  · exact recordAt_empty (hI.dormant key hn b k (.inr (rt.derive_of_find hf)))

end Receipts

section Steps
variable {rt : Runtime} {L L' : EscrowLedger} {now : Int64} {ev : Event} {key : Pubkey}

theorem openSession_event {a : OpenAccounts} {args : OpenArgs}
    (h : openSession rt L now a args = .ok (L', ev)) :
    ev = .sessionOpened a.session a.agent a.provider args.settlementAuthority a.mint
      args.depositAmount args.expiresAt := by
  simp only [openSession, bind_eq_ok, require_eq_ok, mapError_eq_ok, pure_eq_ok,
    tokenInterface_eq_ok, Prod.exists, Prod.mk.injEq, exists_and_left, exists_const] at h
  obtain ⟨-, -, -, -, -, -, -, -, -, -, -, -, -, -, -, -, -, -, -, -, -, -, -, -, -, -, -, hev⟩ := h
  exact hev.symm

theorem tableOf_external (hx : External rt L L') : tableOf rt L' = tableOf rt L := by
  funext key
  have hr : receiptAt rt L' key = receiptAt rt L key :=
    receiptAt_congr fun k _ _ => External.recordAt_eq hx k
  unfold tableOf
  rw [External.sessionAt hx, hr]

theorem tableOf_opened {a : OpenAccounts} {args : OpenArgs} {s : Session} (hI : Sound rt L)
    (h : Opened rt L L' now a args s) :
    tableOf rt L' = note (.sessionOpened a.session a.agent a.provider args.settlementAuthority
      a.mint args.depositAmount args.expiresAt) (tableOf rt L) := by
  funext key
  have hr : receiptAt rt L' key = receiptAt rt L key := receiptAt_congr fun k b hf =>
    have hd := rt.derive_of_find hf
    Opened.recordAt h (session_ne_record h.derived hd).symm (vault_ne_record h.vaultDerived hd).symm
  simp only [tableOf, note, hr]
  rw [Opened.sessionAt h, Function.update_apply]
  split_ifs with hk
  · subst hk
    rw [receiptAt_dormant hI (sessionAt_empty h.sessionUnused), h.opened]
    rfl
  · rfl

theorem tableOf_settled {sysvar : ClaimMessage.InstructionsSysvar} {a : SettleAccounts}
    {args : SettleArgs} {s : Session} {delta : UInt64} {provider : Pubkey}
    (h : Settled rt L L' now sysvar a args s delta) :
    tableOf rt L' = note (.sessionSettled a.session provider args.cumulativeAmount delta
      args.merkleRoot now) (tableOf rt L) := by
  obtain ⟨bump, hfind, hwritten⟩ := h.receiptWritten
  have hd := rt.derive_of_find hfind
  funext key
  simp only [tableOf, note]
  rw [Settled.sessionAt h, Function.update_apply]
  split_ifs with hk
  · subst hk
    have hr : receiptAt rt L' a.session = some (receipt rt a.session bump now args) := by
      rw [receiptAt, hfind]
      exact recordAt_eq_some.mpr hwritten
    rw [hr, h.loaded]
    rfl
  · have hr : receiptAt rt L' key = receiptAt rt L key := receiptAt_congr fun k b hf => by
      have hd' := rt.derive_of_find hf
      refine Settled.recordAt h ?_ (session_ne_record h.derived hd').symm
      rintro rfl
      exact hk (settlementSeeds_injective hd' hd)
    rw [hr, tableOf]

theorem tableOf_refunded {a : RefundAccounts} {s : Session} {remaining total : UInt64}
    {agent : Pubkey} {permissionless : Bool} (h : Refunded rt L L' now a s remaining total) :
    tableOf rt L' = note (.sessionRefunded a.session agent remaining permissionless now)
      (tableOf rt L) := by
  funext key
  have hr : receiptAt rt L' key = receiptAt rt L key := receiptAt_congr fun k b hf =>
    Refunded.recordAt h (session_ne_record h.derived (rt.derive_of_find hf)).symm
  simp only [tableOf, note, hr]
  rw [Refunded.sessionAt h, Function.update_apply]
  split_ifs with hk
  · subst hk
    have htotal : total = s.refundedTotal + remaining := by
      have hlt := total.toNat_lt
      have hsum := h.sum
      rw [← UInt64.toNat_inj, UInt64.toNat_add, hsum, Nat.mod_eq_of_lt (by omega)]
    rw [h.loaded, htotal]
    rfl
  · rfl

theorem opened_noted {a : OpenAccounts} {args : OpenArgs} (hI : Sound rt L)
    (hok : openSession rt L now a args = .ok (L', ev)) :
    tableOf rt L' = note ev (tableOf rt L) ∧ Admits (tableOf rt L) ev := by
  obtain ⟨s, ho⟩ := openSession_effect hok
  obtain rfl := openSession_event hok
  refine ⟨tableOf_opened hI ho, ?_, ho.positive⟩
  simp [tableOf, sessionAt_empty ho.sessionUnused]

theorem settled_noted {sysvar : ClaimMessage.InstructionsSysvar} {a : SettleAccounts}
    {args : SettleArgs} (hok : settleSession rt L now sysvar a args = .ok (L', ev)) :
    tableOf rt L' = note ev (tableOf rt L) ∧ Admits (tableOf rt L) ev := by
  obtain ⟨s, delta, ho⟩ := settleSession_effect hok
  obtain ⟨s', _, delta', _, hv, _, _, _, hd, _, _, rfl⟩ := settleSession_eq_ok.mp hok
  obtain rfl : s' = s := Option.some.inj (hv.loaded.symm.trans ho.loaded)
  obtain rfl : delta' = delta := Except.ok.inj (hd.symm.trans ho.amounts)
  have hchecks := settleChecks_eq_ok.mp ho.checks
  have hamounts := settleAmounts_eq_ok.mp ho.amounts
  refine ⟨tableOf_settled ho, viewOf s' (receiptAt rt L a.session), ?_, rfl, ?_, ?_⟩
  · rw [tableOf, ho.loaded]
    rfl
  · have hlt := hchecks.2.2.1
    omega
  · simp only [viewOf]
    exact ⟨by omega, hamounts.2, hchecks.1.2⟩

theorem refunded_noted {a : RefundAccounts} (hok : refundSession rt L now a = .ok (L', ev)) :
    tableOf rt L' = note ev (tableOf rt L) ∧ Admits (tableOf rt L) ev := by
  obtain ⟨s, remaining, total, ho⟩ := refundSession_effect hok
  obtain ⟨s', limit, remaining', _, _, hv, hl, hg, hr, _, _, _, rfl⟩ :=
    refundSession_eq_ok.mp hok
  obtain rfl : s' = s := Option.some.inj (hv.loaded.symm.trans ho.loaded)
  obtain rfl : remaining' = remaining := Except.ok.inj (hr.symm.trans ho.rest)
  have hrest := refundRemaining_eq_ok.mp ho.rest
  have hlimit := deadline_eq_ok.mp hl
  refine ⟨tableOf_refunded ho, viewOf s' (receiptAt rt L a.session), ?_, rfl, hrest.1, ?_⟩
  · rw [tableOf, ho.loaded]
    rfl
  · simp only [viewOf, decide_eq_true_eq, decide_eq_false_iff_not]
    refine ⟨by omega, ?_, fun hnot => (hg.resolve_left hnot).2⟩
    rw [Int64.lt_iff_toInt_lt, hlimit]

theorem execute_noted {c : Call} (hI : Sound rt L) (hok : execute rt L c = .ok (L', ev)) :
    tableOf rt L' = note ev (tableOf rt L) ∧ Admits (tableOf rt L) ev := by
  cases c with
  | openSession now a args => exact opened_noted hI hok
  | settleSession now sysvar a args => exact settled_noted hok
  | refundSession now a => exact refunded_noted hok

/-- A step moves the table as its event says, and the event fits the table. -/
theorem step_noted {i : Label} (hI : Sound rt L) (h : Step rt L i L') :
    tableOf rt L' = noteStep note (tableOf rt L) (emitted rt ⟨L, i, L'⟩) ∧
      ∀ e, emitted rt ⟨L, i, L'⟩ = some e → Admits (tableOf rt L) e := by
  cases h with
  | external hx => exact ⟨tableOf_external hx, fun e he => by cases he⟩
  | @call c hs =>
    unfold apply
    rcases ok_or_error (execute rt L c) with ⟨⟨L₁, ev⟩, hok⟩ | ⟨e, herr⟩
    · have hemit : ∀ L', emitted rt ⟨L, .call c, L'⟩ = some ev := by
        intro L'
        simp only [emitted, hok]
        rfl
      simp only [hok, hemit, noteStep, Option.some.injEq, forall_eq']
      exact execute_noted hI hok
    · have hemit : ∀ L', emitted rt ⟨L, .call c, L'⟩ = none := by
        intro L'
        simp only [emitted, herr]
        rfl
      simp only [herr, hemit, noteStep]
      exact ⟨trivial, fun e he => by cases he⟩

/-- What the settlements of a session moved, by its events. -/
def transferredOf (session : Pubkey) : List Event → ℕ
  | [] => 0
  | .sessionSettled key _ _ transferred _ _ :: l =>
    (if key = session then transferred.toNat else 0) + transferredOf session l
  | _ :: l => transferredOf session l

/-- What the refunds of a session moved, by its events. -/
def returnedOf (session : Pubkey) : List Event → ℕ
  | [] => 0
  | .sessionRefunded key _ amount _ _ :: l =>
    (if key = session then amount.toNat else 0) + returnedOf session l
  | _ :: l => returnedOf session l

end Steps

section Logs
variable {l : List Event} {key : Pubkey}

def noSessions : SessionTable := fun _ => none

/-- The counters a legal log leaves are the sums of its amounts. -/
theorem legal_sums (hl : Legal Admits note noSessions l) :
    match replay note noSessions l key with
    | some v => v.cumulativeSettled.toNat = transferredOf key l ∧
        v.refundedTotal.toNat = returnedOf key l
    | none => transferredOf key l = 0 ∧ returnedOf key l = 0 := by
  induction hl with
  | nil => exact ⟨rfl, rfl⟩
  | @cons l e hl he ih =>
    have hcons : replay note noSessions (e :: l) = note e (replay note noSessions l) := rfl
    rw [hcons]
    cases e with
    | sessionOpened session agent provider authority mint depositedTotal expiresAt =>
      simp only [note, transferredOf, returnedOf, Function.update_apply]
      split_ifs with hk
      · subst hk
        rw [he.1] at ih
        exact ⟨ih.1.symm, ih.2.symm⟩
      · exact ih
    | sessionSettled session provider amount transferred root settledAt =>
      obtain ⟨x, hx, -, -, hsum, -⟩ := he
      simp only [note, transferredOf, returnedOf, Function.update_apply]
      split_ifs with hk hk' hk'
      · subst hk
        rw [hx] at ih ⊢
        simp only [Option.map_some, SessionView.settle]
        exact ⟨by omega, ih.2⟩
      · exact absurd hk.symm hk'
      · exact absurd hk'.symm hk
      · simpa using ih
    | sessionRefunded session agent amount permissionless refundedAt =>
      obtain ⟨x, hx, -, -, hsum, -⟩ := he
      simp only [note, transferredOf, returnedOf, Function.update_apply]
      split_ifs with hk hk' hk'
      · subst hk
        rw [hx] at ih ⊢
        have hlt := x.depositedTotal.toNat_lt
        simp only [Option.map_some, SessionView.refund, UInt64.toNat_add]
        rw [Nat.mod_eq_of_lt (by omega)]
        exact ⟨ih.1, by omega⟩
      · exact absurd hk.symm hk'
      · exact absurd hk'.symm hk
      · simpa using ih

end Logs

section Runs
variable {rt : Runtime} {L₀ L : EscrowLedger} {h : History EscrowLedger Label} {key : Pubkey}

theorem tableOf_genesis (hg : Genesis rt L₀) : tableOf rt L₀ = noSessions := by
  funext key
  have hn : sessionAt rt L₀ key = none := by simp [sessionAt, hg.owned key]
  simp [tableOf, hn, noSessions]

theorem events_legal (hr : Run (Step rt) L₀ h L) (hg : Genesis rt L₀) :
    Legal Admits note noSessions (events rt h) := by
  rw [← tableOf_genesis hg]
  exact legal_run (fun _ _ _ hI hs => sound_outcome hI (step_outcome hs))
    (fun _ _ _ hI hs => (step_noted hI hs).1) (fun _ _ _ e hI hs => (step_noted hI hs).2 e)
    hr (sound_genesis hg)

/-- The events after any snapshot of the table carry it on. -/
theorem events_resume (hI : Sound rt L₀) (hr : Run (Step rt) L₀ h L) :
    replay note (tableOf rt L₀) (events rt h) = tableOf rt L :=
  replay_run (fun _ _ _ hI hs => sound_outcome hI (step_outcome hs))
    (fun _ _ _ hI hs => (step_noted hI hs).1) hr hI

theorem events_rebuild (hr : Run (Step rt) L₀ h L) (hg : Genesis rt L₀) :
    replay note noSessions (events rt h) = tableOf rt L := by
  rw [← tableOf_genesis hg]
  exact events_resume (sound_genesis hg) hr

/-- An indexer that sees only the events holds, of every session and its receipt, the fields of
`SessionView` as they are on chain, whenever it looks, and may start from any snapshot of these.
What the events do not carry is no field of the view: the session's id, its vault, the bumps and
the claim hash. -/
theorem sessions_rebuilt_from_events (hr : Run (Step rt) L₀ h L) (hg : Genesis rt L₀) :
    replay note noSessions (events rt h) = tableOf rt L ∧
      ∀ h' L', Run (Step rt) L h' L' →
        replay note (tableOf rt L) (events rt h') = tableOf rt L' :=
  ⟨events_rebuild hr hg, fun _ _ hr' => events_resume (sound_run (sound_genesis hg) hr) hr'⟩

theorem sessions_rebuilt_from_events_bench :
    tableOf Bench.runtime Bench.afterRefund Bench.session =
        some (viewOf (Bench.sessionWith 100 900)
          (receiptAt Bench.runtime Bench.afterRefund Bench.session)) ∧
      replay note noSessions (events Bench.runtime Bench.history) =
        tableOf Bench.runtime Bench.afterRefund := by
  have hs : sessionAt Bench.runtime Bench.afterRefund Bench.session =
      some (Bench.sessionWith 100 900) := by decide +kernel
  refine ⟨?_, (sessions_rebuilt_from_events Bench.run_afterRefund Bench.genesis_valid).1⟩
  rw [tableOf, hs]
  rfl

/-- The events of a run, audited against the tokens that moved in it. -/
structure Audited (rt : Runtime) (h : History EscrowLedger Label) (key : Pubkey) (s : Session) :
    Prop where
  legal : Legal Admits note noSessions (events rt h)
  transferred : transferredOf key (events rt h) = settledOut key s.vault h
  returned : returnedOf key (events rt h) = refundedOut key s.vault h
  bounded : transferredOf key (events rt h) + returnedOf key (events rt h) ≤ s.depositedTotal.toNat

/-- Every log is legal, and per session its amounts are what left the vault. That holds for
mints that withhold a fee too: what is counted is what the vault paid, not what arrived. -/
theorem events_audited {s : Session} (hr : Run (Step rt) L₀ h L) (hg : Genesis rt L₀)
    (hs : sessionAt rt L key = some s) : Audited rt h key s := by
  have hlegal := events_legal hr hg
  have hsums := @legal_sums _ key hlegal
  rw [events_rebuild hr hg, tableOf, hs] at hsums
  obtain ⟨hsettled, hrefunded⟩ := hsums
  have hbooks := books_run hr hg hs
  have hbounded := ((sound_run (sound_genesis hg) hr).session key s hs).bounded
  refine ⟨hlegal, ?_, ?_, ?_⟩
  · rw [hbooks.settled]
    exact hsettled.symm
  · rw [hbooks.refunded]
    exact hrefunded.symm
  · rw [← hsettled, ← hrefunded]
    exact hbounded

theorem events_audited_bench :
    sessionAt Bench.runtime Bench.afterRefund Bench.session = some (Bench.sessionWith 100 900) ∧
      Audited Bench.runtime Bench.history Bench.session (Bench.sessionWith 100 900) := by
  have hs : sessionAt Bench.runtime Bench.afterRefund Bench.session =
      some (Bench.sessionWith 100 900) := by decide +kernel
  exact ⟨hs, events_audited Bench.run_afterRefund Bench.genesis_valid hs⟩

end Runs

end AgentPay.SessionEvents
