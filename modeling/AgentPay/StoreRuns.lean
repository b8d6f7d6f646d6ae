import AgentPay.SessionStore
import AgentPay.Runs

/-!
# Runs of the Postgres store

The methods of `SessionStore` as implemented by `Database`, executed one after
another: the row lock of a session makes `admit_claim` atomic, the others are
single statements. A call that fails leaves the tables as they were, since the
transaction it opened is dropped without a commit. A restart keeps nothing but
the tables; the gateway comes up if the unsettled sessions can be read.

`Consistent` is what every run keeps of one session: its row, its ticket and its
log agree. `admit_cases` lists what `admit_claim` can do in a consistent store, and
`Wrote` the tables that a call can leave.
-/
namespace AgentPay.StoreRuns
open SolanaRuntime EscrowState GatewayClaims EvidenceLog SessionStore Fallible Runs

/-- The calls of the `SessionStore` trait, and a restart of the gateway between two of them. The
clock of an admission comes with its call. -/
inductive StoreCall where
  | openSession (record : SessionRecord)
  | getSession (session : Pubkey)
  | admitClaim (claim : Claim) (signature : Signature) (now : Int64)
  | markSettled (session : Pubkey)
  | markChainVerified (session : Pubkey)
  | restart
deriving DecidableEq

inductive StoreReply where
  | done (result : Except StoreError Unit)
  | found (result : Except StoreError SessionRecord)
  | decided (result : Except StoreError (Except ClaimRejection ClaimAccepted))
deriving DecidableEq

/-- The result of a call that writes, with the state it leaves. -/
def commit {σ α : Type} (s : σ) (x : Except StoreError (σ × α)) : Except StoreError α × σ :=
  match x with
  | .ok (s', a) => (.ok a, s')
  | .error e => (.error e, s)

def execute (sha256 : List UInt8 → Hash) (db : Database) : StoreCall → StoreReply × Database
  | .openSession record =>
    let (result, db') := commit db ((openRecord db record).map fun db' => (db', ()))
    (.done result, db')
  | .getSession session => (.found (getRecord db session), db)
  | .admitClaim claim signature now =>
    let (result, db') := commit db (admitClaim sha256 db claim signature now)
    (.decided result, db')
  | .markSettled session => (.done (.ok ()), markSettled db session)
  | .markChainVerified session =>
    let (result, db') := commit db ((markChainVerified db session).map fun db' => (db', ()))
    (.done result, db')
  | .restart =>
    (.done (((loadActiveSessions db).map fun _ => ()).mapError DbError.toStoreError), db)

/-- One call of the store, from its first statement to its COMMIT: the row lock of a session
keeps the calls on it in turn, and calls on different sessions touch different rows. -/
def StoreStep (sha256 : List UInt8 → Hash) (db : Database) (call : StoreCall) (db' : Database) :
    Prop :=
  db' = (execute sha256 db call).2

section Marks

/-- The columns a ticket shares with the entry that allowed its claim. -/
structure Mark where
  cumulativeAmount : Int64
  nonce : Int64
  signature : Signature
deriving DecidableEq

def ticketMark (t : TicketRow) : Mark := ⟨t.cumulativeAmount, t.nonce, t.signature⟩
def entryMark (e : EvidenceRow) : Mark := ⟨e.cumulativeAmount, e.nonce, e.signature⟩

def allowedRows (log : List EvidenceRow) : List EvidenceRow :=
  log.filter fun e => e.decision = .allowed

def Below (a b : EvidenceRow) : Prop :=
  a.cumulativeAmount.toInt < b.cumulativeAmount.toInt ∧ a.nonce.toInt < b.nonce.toInt

end Marks

/-- A log that reads back as a verified chain. -/
structure Linked (sha256 : List UInt8 → Hash) (session : Pubkey) (log : List EvidenceRow) :
    Prop where
  nonneg : ∀ e ∈ log, 0 ≤ e.cumulativeAmount.toInt ∧ 0 ≤ e.nonce.toInt
  numbered : ∀ (i : ℕ) (h : i < log.length), log[i].sequenceId.toInt = i
  chain : verifyChain sha256 session (log.map EvidenceRow.entry) = .ok ()

/-- The row, the ticket and the log of a session agree. -/
structure Consistent (sha256 : List UInt8 → Hash) (session : Pubkey) (row : Option SessionRow)
    (ticket : Option TicketRow) (log : List EvidenceRow) : Prop where
  untracked : row = none → ticket = none ∧ log = []
  deposit : ∀ r, row = some r → 0 < r.depositedTotal.toInt
  linked : Linked sha256 session log
  increasing : (allowedRows log).Pairwise Below
  within : ∀ r, row = some r → ∀ e ∈ allowedRows log,
    e.cumulativeAmount.toInt ≤ r.depositedTotal.toInt
  ticket : ticket.map ticketMark = (allowedRows log).getLast?.map entryMark

/-- Every session of the store is consistent. -/
def Intact (sha256 : List UInt8 → Hash) (db : Database) : Prop :=
  ∀ k, Consistent sha256 k (db.sessions k) (db.tickets k) (db.evidence k)

section Reading
variable {sha256 : List UInt8 → Hash} {session : Pubkey} {row : SessionRow}
variable {ticket : Option TicketRow} {log : List EvidenceRow}

theorem toU64_of_nonneg {i : Int64} {field : String} (h : 0 ≤ i.toInt) :
    toU64 i field = .ok i.toUInt64 := if_pos h

theorem readEntry_eq {e : EvidenceRow}
    (h : 0 ≤ e.cumulativeAmount.toInt ∧ 0 ≤ e.nonce.toInt) : readEntry e = .ok e.entry := by
  rw [readEntry, toU64_of_nonneg h.1, toU64_of_nonneg h.2]
  rfl

theorem loadEvidenceChain_eq {db : Database}
    (h : Consistent sha256 session (db.sessions session) (db.tickets session)
      (db.evidence session)) :
    loadEvidenceChain db session = .ok ((db.evidence session).map EvidenceRow.entry) :=
  mapM_eq_ok fun e he => readEntry_eq (h.linked.nonneg e he)

/-- The signed claim a ticket stands for. -/
def ticketClaim (session : Pubkey) (t : TicketRow) : SignedClaim :=
  ⟨⟨session, t.cumulativeAmount.toUInt64, t.nonce.toUInt64, t.expiresAt⟩, t.signature⟩

/-- The record a session's row and ticket describe. -/
def recordOf (session : Pubkey) (row : SessionRow) (ticket : Option TicketRow) : SessionRecord where
  session := session
  agent := row.agent
  provider := row.provider
  mint := row.mint
  depositedTotal := row.depositedTotal.toUInt64
  expiresAt := row.expiresAt
  cumulativeAccepted := (ticket.map fun t => t.cumulativeAmount.toUInt64).getD 0
  lastNonce := ticket.map fun t => t.nonce.toUInt64
  highestClaim := ticket.map (ticketClaim session)
  isSettled := row.settled
  chainVerified := row.chainVerified

theorem Consistent.last_allowed (h : Consistent sha256 session (some row) ticket log)
    {t : TicketRow} (ht : ticket = some t) :
    ∃ e, (allowedRows log).getLast? = some e ∧ ticketMark t = entryMark e := by
  have hm := h.ticket
  rw [ht, Option.map_some] at hm
  rcases he : (allowedRows log).getLast? with _ | e
  · rw [he] at hm
    cases hm
  · rw [he, Option.map_some, Option.some.injEq] at hm
    exact ⟨e, rfl, hm⟩

theorem mem_of_mem_allowedRows {e : EvidenceRow} (h : e ∈ allowedRows log) : e ∈ log :=
  (List.mem_filter.mp h).1

theorem Linked.allowed_nonneg (h : Linked sha256 session log) {e : EvidenceRow}
    (he : e ∈ allowedRows log) : 0 ≤ e.cumulativeAmount.toInt ∧ 0 ≤ e.nonce.toInt :=
  h.nonneg e (mem_of_mem_allowedRows he)

theorem Consistent.ticket_nonneg (h : Consistent sha256 session (some row) ticket log)
    {t : TicketRow} (ht : ticket = some t) :
    0 ≤ t.cumulativeAmount.toInt ∧ 0 ≤ t.nonce.toInt := by
  rcases h.last_allowed ht with ⟨e, he, hm⟩
  have hn := h.linked.allowed_nonneg (List.mem_of_getLast? he)
  rw [ticketMark, entryMark, Mark.mk.injEq] at hm
  rw [hm.1, hm.2.1]
  exact hn

theorem ticketColumns_eq (h : Consistent sha256 session (some row) ticket log) :
    ticketColumns session ticket = .ok ((recordOf session row ticket).cumulativeAccepted,
      (recordOf session row ticket).lastNonce, (recordOf session row ticket).highestClaim) := by
  rcases ht : ticket with _ | t
  · rfl
  · have hn := h.ticket_nonneg ht
    rw [ticketColumns, toU64_of_nonneg hn.1, toU64_of_nonneg hn.2]
    rfl

theorem rowToRecord_eq (h : Consistent sha256 session (some row) ticket log) :
    rowToRecord session row ticket = .ok (recordOf session row ticket) := by
  rw [rowToRecord, ticketColumns_eq h, toU64_of_nonneg (h.deposit row rfl).le]
  rfl

theorem lockedRecord_eq {db : Database}
    (h : Consistent sha256 session (some row) (db.tickets session) log) :
    lockedRecord db session row =
      .ok { recordOf session row (db.tickets session) with highestClaim := none } := by
  rw [lockedRecord, toU64_of_nonneg (h.deposit row rfl).le, ticketColumns_eq h]
  rfl

/-- The number and the link of the next entry; the number is checked. -/
theorem nextLink_eq (h : Linked sha256 session log) :
    nextLink log.getLast? = if log.length < 2 ^ 63 then
      .ok (Int64.ofNat log.length, tipHash zeroHash (log.map EvidenceRow.entry))
    else .error (.outOfRange "sequence_id" (UInt64.ofNat (2 ^ 64 - 1))) := by
  rcases hl : log.getLast? with _ | e
  · rw [List.getLast?_eq_none_iff] at hl
    subst hl
    rfl
  · have hne : log ≠ [] := by
      intro hnil
      rw [hnil] at hl
      cases hl
    have hpos := List.length_pos_iff.mpr hne
    have hlast : log[log.length - 1]? = some e := by
      rw [← List.getLast?_eq_getElem?]
      exact hl
    rw [List.getElem?_eq_getElem (by omega), Option.some.injEq] at hlast
    have hnum := h.numbered (log.length - 1) (by omega)
    rw [hlast] at hnum
    have htip : tipHash zeroHash (log.map EvidenceRow.entry) = e.entryHash := by
      rw [tipHash, List.getLast?_map, hl]
      rfl
    have hone : (1 : Int64).toInt = 1 := rfl
    split_ifs with hroom
    · have hadd : e.sequenceId.checkedAdd 1 = some (Int64.ofNat log.length) := by
        rw [Int64.checkedAdd_eq_some, Int64.toInt_ofNat_of_lt hroom, hnum, hone]
        omega
      rw [nextLink, hadd, htip]
      rfl
    · have hadd : e.sequenceId.checkedAdd 1 = none := by
        rw [Int64.checkedAdd_eq_none, hnum, hone]
        omega
      rw [nextLink, hadd]
      rfl

end Reading

section Admitting
variable (sha256 : List UInt8 → Hash)

/-- The row a decision on a claim is recorded as. -/
def nextRow (db : Database) (claim : Claim) (decision : Decision) (signature : Signature) :
    EvidenceRow :=
  evidenceRow sha256 claim decision signature (Int64.ofNat (db.evidence claim.session).length)
    (tipHash zeroHash ((db.evidence claim.session).map EvidenceRow.entry))

/-- The ticket an accepted claim is kept as. -/
def ticketOf (claim : Claim) (signature : Signature) : TicketRow :=
  ⟨claim.cumulativeAmount.toInt64, claim.nonce.toInt64, claim.expiresAt, signature⟩

/-- Everything `admit_claim` can do with a claim on a tracked session. -/
inductive Admit (db : Database) (claim : Claim) (signature : Signature) (now : Int64)
    (record : SessionRecord) :
    Except StoreError (Database × Except ClaimRejection ClaimAccepted) → Prop
  | settled : record.isSettled = true →
      evaluateClaim record claim now = .error .sessionSettled →
      Admit db claim signature now record (.ok (db, .error .sessionSettled))
  | refused {r : ClaimRejection} {d : Decision} : record.isSettled = false →
      evaluateClaim record claim now = .error r → decisionOf (.error r) = some d →
      (db.evidence claim.session).length < 2 ^ 63 →
      Admit db claim signature now record
        (.ok (db.pushEvidence claim.session (nextRow sha256 db claim d signature), .error r))
  | accepted {acc : ClaimAccepted} : evaluateClaim record claim now = .ok acc →
      (db.evidence claim.session).length < 2 ^ 63 → claim.nonce.toNat < 2 ^ 63 →
      Admit db claim signature now record
        (.ok ((db.pushEvidence claim.session (nextRow sha256 db claim .allowed signature)).setTicket
          claim.session (ticketOf claim signature), .ok acc))
  | full : record.isSettled = false → 2 ^ 63 ≤ (db.evidence claim.session).length →
      Admit db claim signature now record (.error .unavailable)
  | nonceTooLarge {acc : ClaimAccepted} : evaluateClaim record claim now = .ok acc →
      2 ^ 63 ≤ claim.nonce.toNat → Admit db claim signature now record (.error .unavailable)

variable {sha256} {db : Database} {claim : Claim} {signature : Signature} {now : Int64}
variable {row : SessionRow}

theorem appendEvidence_eq {decision : Decision}
    (h : Linked sha256 claim.session (db.evidence claim.session)) :
    appendEvidence sha256 db claim decision signature =
      if (db.evidence claim.session).length < 2 ^ 63 then
        .ok (db.pushEvidence claim.session (nextRow sha256 db claim decision signature))
      else .error (.outOfRange "sequence_id" (UInt64.ofNat (2 ^ 64 - 1))) := by
  rw [appendEvidence, nextLink_eq h]
  split_ifs with hroom
  · rfl
  · rfl

section Acceptance
variable {ticket : Option TicketRow} {log : List EvidenceRow} {acc : ClaimAccepted}

theorem accepted_within (h : Consistent sha256 claim.session (some row) ticket log)
    (hacc : Accepted (recordOf claim.session row ticket) claim now acc) :
    (claim.cumulativeAmount.toNat : ℤ) ≤ row.depositedTotal.toInt ∧
      claim.cumulativeAmount.toNat < 2 ^ 63 := by
  have hdep := Int64.toNat_toUInt64 (h.deposit row rfl).le
  have hlt := row.depositedTotal.toInt_lt
  have hwithin : claim.cumulativeAmount.toNat ≤ row.depositedTotal.toUInt64.toNat := hacc.within
  omega

theorem accepted_above (h : Consistent sha256 claim.session (some row) ticket log)
    (hacc : Accepted (recordOf claim.session row ticket) claim now acc) {t : TicketRow}
    (ht : ticket = some t) :
    t.cumulativeAmount.toInt < claim.cumulativeAmount.toNat ∧
      t.nonce.toInt < claim.nonce.toNat := by
  have hold := h.ticket_nonneg ht
  have habove := hacc.above
  have hnext := hacc.nonce
  have h₁ := Int64.toNat_toUInt64 hold.1
  have h₂ := Int64.toNat_toUInt64 hold.2
  rw [recordOf, ht] at habove hnext
  simp only [Option.map_some, Option.getD_some, nonceAdvances, UInt64.lt_iff_toNat_lt]
    at habove hnext
  omega

end Acceptance

/-- The upsert of an accepted claim always matches its row. -/
theorem writeTicket_accepted {acc : ClaimAccepted} {e : EvidenceRow}
    (h : Consistent sha256 claim.session (some row) (db.tickets claim.session)
      (db.evidence claim.session))
    (hacc : Accepted (recordOf claim.session row (db.tickets claim.session)) claim now acc)
    (hnonce : claim.nonce.toNat < 2 ^ 63) :
    writeTicket (db.pushEvidence claim.session e) claim.session (ticketOf claim signature) =
      some ((db.pushEvidence claim.session e).setTicket claim.session
        (ticketOf claim signature)) := by
  have hcum := UInt64.toInt_toInt64 (accepted_within h hacc).2
  have hn := UInt64.toInt_toInt64 hnonce
  rw [writeTicket, pushEvidence_tickets]
  rcases ht : db.tickets claim.session with _ | old
  · rfl
  · apply if_pos
    rw [Int64.lt_iff_toInt_lt, Int64.lt_iff_toInt_lt, ticketOf, hcum, hn]
    exact accepted_above h hacc ht

theorem toI64_of_lt {v : UInt64} {field : String} (h : v.toNat < 2 ^ 63) :
    toI64 v field = .ok v.toInt64 := if_pos h

/-- An unsettled session refuses for a reason that is recorded. -/
theorem decisionOf_refused {record : SessionRecord} {r : ClaimRejection}
    (hs : record.isSettled = false) (h : evaluateClaim record claim now = .error r) :
    ∃ d, decisionOf (.error r) = some d ∧ d ≠ .allowed := by
  have hne : r ≠ .sessionSettled := by
    intro hr
    subst hr
    simp only [evaluateClaim, bind_eq_error, require_eq_error, okOr_eq_error, pure_eq_error, hs,
      not_true_eq_false, reduceCtorEq, and_false, false_and, exists_const, or_self] at h
  cases r with
  | sessionSettled => exact absurd rfl hne
  | sessionExpired => exact ⟨.sessionExpired, rfl, by decide⟩
  | notMonotonic => exact ⟨.notMonotonic, rfl, by decide⟩
  | nonceNotMonotonic => exact ⟨.nonceNotMonotonic, rfl, by decide⟩
  | exceedsDeposit => exact ⟨.exceedsDeposit, rfl, by decide⟩

/-- Only a settled session has a claim refused without a decision. -/
theorem decisionOf_open {record : SessionRecord} (hs : record.isSettled = false) :
    ∃ d, decisionOf (evaluateClaim record claim now) = some d := by
  rcases ho : evaluateClaim record claim now with r | acc
  · obtain ⟨d, hd, -⟩ := decisionOf_refused hs ho
    exact ⟨d, hd⟩
  · exact ⟨.allowed, rfl⟩

theorem evaluateClaim_of_settled {record : SessionRecord} (hs : record.isSettled = true) :
    evaluateClaim record claim now = .error .sessionSettled := by
  simp [evaluateClaim, hs]

theorem admit_cases (hrow : db.sessions claim.session = some row)
    (h : Consistent sha256 claim.session (some row) (db.tickets claim.session)
      (db.evidence claim.session)) :
    Admit sha256 db claim signature now (recordOf claim.session row (db.tickets claim.session))
      (admitClaim sha256 db claim signature now) := by
  have hlocked : ∀ record, evaluateClaim { record with highestClaim := none } claim now =
      evaluateClaim record claim now := fun _ => rfl
  simp only [admitClaim, upsertClaimHighWaterMark, hrow, okOr, ok_bind, lockedRecord_eq h, hlocked]
  rcases ho : evaluateClaim (recordOf claim.session row (db.tickets claim.session)) claim now
    with r | acc
  · rcases hs : (recordOf claim.session row (db.tickets claim.session)).isSettled with _ | _
    · rcases decisionOf_refused hs ho with ⟨d, hd, _⟩
      simp only [recordDecision, hd, appendEvidence_eq h.linked]
      split_ifs with hroom
      · exact .refused hs ho hd hroom
      · exact .full hs (Nat.le_of_not_lt hroom)
    · rw [evaluateClaim_of_settled hs] at ho
      cases ho
      exact .settled hs (evaluateClaim_of_settled hs)
  · have hacc := evaluateClaim_eq_ok.mp ho
    simp only [recordDecision, decisionOf, appendEvidence_eq h.linked]
    split_ifs with hroom
    · rw [hacc.result]
      simp only [ok_bind, toI64_of_lt (accepted_within h hacc).2]
      by_cases hnonce : claim.nonce.toNat < 2 ^ 63
      · have hw := @writeTicket_accepted sha256 db claim signature now row acc
          (nextRow sha256 db claim .allowed signature) h hacc hnonce
        simp only [toI64_of_lt hnonce, ok_bind]
        rw [ticketOf] at hw
        rw [hw]
        rw [hacc.result] at ho
        exact .accepted ho hroom hnonce
      · rw [toI64, if_neg hnonce]
        exact .nonceTooLarge ho (Nat.le_of_not_lt hnonce)
    · exact .full hacc.unsettled (Nat.le_of_not_lt hroom)

end Admitting

section Keeping
variable {sha256 : List UInt8 → Hash} {session : Pubkey} {row row' : SessionRow}
variable {ticket : Option TicketRow} {log : List EvidenceRow} {claim : Claim} {d : Decision}
variable {signature : Signature}

theorem clampI64_toNat (v : UInt64) : (clampI64 v).toNat = min v.toNat (2 ^ 63 - 1) := by
  have hmax : (UInt64.ofNat (2 ^ 63 - 1)).toNat = 2 ^ 63 - 1 := rfl
  change (if v ≤ UInt64.ofNat (2 ^ 63 - 1) then v else UInt64.ofNat (2 ^ 63 - 1)).toNat = _
  split_ifs with h
  · rw [UInt64.le_iff_toNat_le, hmax] at h
    exact (Nat.min_eq_left h).symm
  · rw [UInt64.le_iff_toNat_le, hmax] at h
    rw [hmax]
    omega

theorem clampI64_toInt (v : UInt64) : (clampI64 v).toInt64.toInt = min v.toNat (2 ^ 63 - 1) := by
  have h := clampI64_toNat v
  rw [UInt64.toInt_toInt64 (by omega), h]

theorem clampI64_roundTrip (v : UInt64) : (clampI64 v).toInt64.toUInt64 = clampI64 v := by
  have h := clampI64_toInt v
  have hn := clampI64_toNat v
  have hu := Int64.toNat_toUInt64 (show 0 ≤ (clampI64 v).toInt64.toInt by omega)
  rw [← UInt64.toNat_inj]
  omega

theorem Linked.push (h : Linked sha256 claim.session log) (hroom : log.length < 2 ^ 63) :
    Linked sha256 claim.session (log ++ [evidenceRow sha256 claim d signature
      (Int64.ofNat log.length) (tipHash zeroHash (log.map EvidenceRow.entry))]) := by
  constructor
  · intro e he
    rw [List.mem_append, List.mem_singleton] at he
    rcases he with he | rfl
    · exact h.nonneg e he
    · have hc := clampI64_toInt claim.cumulativeAmount
      have hn := clampI64_toInt claim.nonce
      simp only [evidenceRow]
      omega
  · intro i hi
    rw [List.length_append, List.length_singleton] at hi
    rw [List.getElem_append]
    split_ifs with hlt
    · exact h.numbered i hlt
    · have hi' : i = log.length := by omega
      subst hi'
      simp only [List.getElem_singleton, evidenceRow]
      exact Int64.toInt_ofNat_of_lt hroom
  · rw [List.map_append, List.map_singleton, verifyChain_concat]
    refine ⟨h.chain, ?_, rfl, ?_⟩
    · rw [List.length_map]
      rfl
    · simp only [EvidenceEntry.recomputed, EvidenceRow.entry, evidenceRow, clampI64_roundTrip]

theorem allowedRows_concat {e : EvidenceRow} :
    allowedRows (log ++ [e]) = if e.decision = .allowed then allowedRows log ++ [e]
      else allowedRows log := by
  rw [allowedRows, List.filter_append]
  split_ifs with h
  · rw [List.filter_cons_of_pos (by simpa using h)]
    rfl
  · rw [List.filter_cons_of_neg (by simpa using h), List.filter_nil, List.append_nil]
    rfl

/-- A refusal adds an entry and moves nothing else. -/
theorem Consistent.push_refused (h : Consistent sha256 claim.session (some row) ticket log)
    (hroom : log.length < 2 ^ 63) (hd : d ≠ .allowed) :
    Consistent sha256 claim.session (some row) ticket (log ++ [evidenceRow sha256 claim d signature
      (Int64.ofNat log.length) (tipHash zeroHash (log.map EvidenceRow.entry))]) := by
  have hrows : allowedRows (log ++ [evidenceRow sha256 claim d signature
      (Int64.ofNat log.length) (tipHash zeroHash (log.map EvidenceRow.entry))]) =
      allowedRows log := by
    rw [allowedRows_concat]
    exact if_neg hd
  refine ⟨by simp, h.deposit, h.linked.push hroom, ?_, ?_, ?_⟩
  · rw [hrows]
    exact h.increasing
  · rw [hrows]
    exact h.within
  · rw [hrows]
    exact h.ticket

theorem clampI64_of_lt {v : UInt64} (h : v.toNat < 2 ^ 63) : clampI64 v = v := by
  rw [← UInt64.toNat_inj, clampI64_toNat]
  omega

/-- In a list ordered by `Below` nothing comes after the last row. -/
theorem below_last {rows : List EvidenceRow} (hp : rows.Pairwise Below) {e last : EvidenceRow}
    (hl : rows.getLast? = some last) (he : e ∈ rows) : e = last ∨ Below e last := by
  rcases List.getLast?_eq_some_iff.mp hl with ⟨init, rfl⟩
  rw [List.mem_append, List.mem_singleton] at he
  rcases he with he | he
  · exact .inr ((List.pairwise_append.mp hp).2.2 e he last (List.mem_singleton_self _))
  · exact .inl he

/-- An acceptance adds its entry above all earlier ones and moves the ticket. -/
theorem Consistent.push_allowed (h : Consistent sha256 claim.session (some row) ticket log)
    {now : Int64} {acc : ClaimAccepted}
    (hacc : Accepted (recordOf claim.session row ticket) claim now acc)
    (hroom : log.length < 2 ^ 63) (hnonce : claim.nonce.toNat < 2 ^ 63) :
    Consistent sha256 claim.session (some row) (some (ticketOf claim signature))
      (log ++ [evidenceRow sha256 claim .allowed signature (Int64.ofNat log.length)
        (tipHash zeroHash (log.map EvidenceRow.entry))]) := by
  have hwithin := accepted_within h hacc
  have hcum := UInt64.toInt_toInt64 hwithin.2
  have hn := UInt64.toInt_toInt64 hnonce
  have hrows : allowedRows (log ++ [evidenceRow sha256 claim .allowed signature
      (Int64.ofNat log.length) (tipHash zeroHash (log.map EvidenceRow.entry))]) =
      allowedRows log ++ [evidenceRow sha256 claim .allowed signature
        (Int64.ofNat log.length) (tipHash zeroHash (log.map EvidenceRow.entry))] := by
    rw [allowedRows_concat]
    rfl
  refine ⟨by simp, h.deposit, h.linked.push hroom, ?_, ?_, ?_⟩
  · rw [hrows, List.pairwise_append]
    refine ⟨h.increasing, List.pairwise_singleton _ _, ?_⟩
    intro a ha b hb
    rw [List.mem_singleton] at hb
    subst hb
    rcases ht : ticket with _ | t
    · have hnone := h.ticket
      rw [ht, Option.map_none, eq_comm, Option.map_eq_none_iff, List.getLast?_eq_none_iff] at hnone
      rw [hnone] at ha
      cases ha
    · rcases h.last_allowed ht with ⟨last, hlast, hmark⟩
      have habove := accepted_above h hacc ht
      rw [ticketMark, entryMark, Mark.mk.injEq] at hmark
      rw [hmark.1, hmark.2.1, ← hcum, ← hn] at habove
      simp only [Below, evidenceRow, clampI64_of_lt hwithin.2, clampI64_of_lt hnonce]
      rcases below_last h.increasing hlast ha with rfl | hb
      · exact habove
      · exact ⟨hb.1.trans habove.1, hb.2.trans habove.2⟩
  · intro r hr e he
    rw [hrows, List.mem_append, List.mem_singleton] at he
    rcases he with he | rfl
    · exact h.within r hr e he
    · cases hr
      simp only [evidenceRow, clampI64_of_lt hwithin.2, hcum]
      exact hwithin.1
  · rw [hrows, List.getLast?_concat]
    simp only [Option.map_some, ticketMark, entryMark, ticketOf, evidenceRow,
      clampI64_of_lt hwithin.2, clampI64_of_lt hnonce]

/-- The terms of a session stay; only its flags are set. -/
theorem Consistent.row_changed (h : Consistent sha256 session (some row) ticket log)
    (hd : row'.depositedTotal = row.depositedTotal) :
    Consistent sha256 session (some row') ticket log := by
  refine ⟨by simp, ?_, h.linked, h.increasing, ?_, h.ticket⟩
  · intro r hr
    cases hr
    rw [hd]
    exact h.deposit row rfl
  · intro r hr
    cases hr
    rw [hd]
    exact h.within row rfl

theorem Consistent.opened (h : Consistent sha256 session none ticket log)
    (hd : 0 < row.depositedTotal.toInt) : Consistent sha256 session (some row) ticket log := by
  rcases h.untracked rfl with ⟨rfl, rfl⟩
  refine ⟨by simp, ?_, h.linked, h.increasing, ?_, h.ticket⟩
  · intro r hr
    cases hr
    exact hd
  · intro r _ e he
    cases he

theorem consistent_empty : Consistent sha256 session none none [] := by
  refine ⟨fun _ => ⟨rfl, rfl⟩, by simp, ⟨by simp, by simp, rfl⟩, .nil, by simp, rfl⟩

end Keeping

section Steps
variable {sha256 : List UInt8 → Hash} {db : Database} {claim : Claim} {signature : Signature}
variable {now : Int64} {session : Pubkey}

theorem admitClaim_untracked (h : db.sessions claim.session = none) :
    admitClaim sha256 db claim signature now = .error .unknown := by
  simp only [admitClaim, upsertClaimHighWaterMark, h, okOr, error_bind]
  rfl

theorem Intact.tracked {row : SessionRow} (h : Intact sha256 db)
    (hrow : db.sessions session = some row) :
    Consistent sha256 session (some row) (db.tickets session) (db.evidence session) := by
  rw [← hrow]
  exact h session

theorem getRecord_eq {row : SessionRow} (h : Intact sha256 db)
    (hrow : db.sessions session = some row) :
    getRecord db session = .ok (recordOf session row (db.tickets session)) := by
  simp only [getRecord, loadSession, hrow, rowToRecord_eq (h.tracked hrow)]
  rfl

/-- What a call can leave behind: the tables it found, or these with one change. A
decision adds an entry and an acceptance moves the ticket as well. -/
inductive Wrote (sha256 : List UInt8 → Hash) (db : Database) : StoreCall → Database → Prop
  | unchanged {call : StoreCall} : Wrote sha256 db call db
  | opened {record : SessionRecord} {depositedTotal : Int64} (hpos : 0 < depositedTotal.toInt)
      (hnone : db.sessions record.session = none) :
      Wrote sha256 db (.openSession record)
        (Database.setSession { db with order := db.order ++ [record.session] } record.session
          ⟨record.agent, record.provider, record.mint, depositedTotal, record.expiresAt, false,
            record.chainVerified⟩)
  | refused {claim : Claim} {signature : Signature} {now : Int64} {row : SessionRow}
      {d : Decision} (hrow : db.sessions claim.session = some row) (hopen : row.settled = false)
      (hroom : (db.evidence claim.session).length < 2 ^ 63) (hd : d ≠ .allowed) :
      Wrote sha256 db (.admitClaim claim signature now)
        (db.pushEvidence claim.session (nextRow sha256 db claim d signature))
  | admitted {claim : Claim} {signature : Signature} {now : Int64} {row : SessionRow}
      {acc : ClaimAccepted} (hrow : db.sessions claim.session = some row)
      (hopen : row.settled = false) (hroom : (db.evidence claim.session).length < 2 ^ 63)
      (hacc : Accepted (recordOf claim.session row (db.tickets claim.session)) claim now acc)
      (hnonce : claim.nonce.toNat < 2 ^ 63) :
      Wrote sha256 db (.admitClaim claim signature now)
        ((db.pushEvidence claim.session (nextRow sha256 db claim .allowed signature)).setTicket
          claim.session (ticketOf claim signature))
  | settled {session : Pubkey} {row : SessionRow} (hrow : db.sessions session = some row) :
      Wrote sha256 db (.markSettled session)
        (db.setSession session { row with settled := true })
  | verified {session : Pubkey} {row : SessionRow} (hrow : db.sessions session = some row) :
      Wrote sha256 db (.markChainVerified session)
        (db.setSession session { row with chainVerified := true })

theorem openRecord_wrote {record : SessionRecord} {db' : Database}
    (ho : openRecord db record = .ok db') : Wrote sha256 db (.openSession record) db' := by
  rcases openRecord_eq_ok ho with ⟨d, _, hpos, hnone, rfl⟩
  exact .opened hpos hnone

theorem admitClaim_wrote (h : Intact sha256 db) :
    Wrote sha256 db (.admitClaim claim signature now)
      (commit db (admitClaim sha256 db claim signature now)).2 := by
  rcases hrow : db.sessions claim.session with _ | row
  · rw [admitClaim_untracked hrow]
    exact .unchanged
  · have hcases := @admit_cases sha256 db claim signature now row hrow (h.tracked hrow)
    revert hcases
    generalize admitClaim sha256 db claim signature now = x
    intro hcases
    cases hcases with
    | settled _ _ => exact .unchanged
    | refused hs he hd hroom =>
      rcases decisionOf_refused hs he with ⟨d', hd', hne⟩
      rw [hd, Option.some.injEq] at hd'
      subst hd'
      exact .refused hrow hs hroom hne
    | accepted he hroom hnonce =>
      have hacc := evaluateClaim_eq_ok.mp he
      exact .admitted hrow hacc.unsettled hroom hacc hnonce
    | full _ _ => exact .unchanged
    | nonceTooLarge _ _ => exact .unchanged

theorem markSettled_wrote : Wrote sha256 db (.markSettled session) (markSettled db session) := by
  rw [markSettled, markSessionSettled]
  rcases hrow : db.sessions session with _ | row
  · exact .unchanged
  · simp only
    split_ifs
    · exact .unchanged
    · exact .settled hrow

theorem execute_wrote (h : Intact sha256 db) (call : StoreCall) :
    Wrote sha256 db call (execute sha256 db call).2 := by
  cases call with
  | openSession record =>
    rcases ho : openRecord db record with e | db'
    · simp only [execute, ho]
      exact .unchanged
    · simp only [execute, ho]
      exact openRecord_wrote ho
  | getSession k => exact .unchanged
  | admitClaim claim signature now => exact admitClaim_wrote h
  | markSettled k => exact markSettled_wrote
  | markChainVerified k =>
    rcases hrow : db.sessions k with _ | row
    · simp only [execute, markChainVerified, hrow]
      exact .unchanged
    · simp only [execute, markChainVerified, hrow]
      exact .verified hrow
  | restart => exact .unchanged

theorem Intact.push_refused (h : Intact sha256 db) {row : SessionRow} {d : Decision}
    (hrow : db.sessions claim.session = some row) (hd : d ≠ .allowed)
    (hroom : (db.evidence claim.session).length < 2 ^ 63) :
    Intact sha256 (db.pushEvidence claim.session (nextRow sha256 db claim d signature)) := by
  intro k
  rw [pushEvidence_sessions, pushEvidence_tickets, pushEvidence_evidence]
  split_ifs with hk
  · subst hk
    rw [hrow]
    exact (h.tracked hrow).push_refused hroom hd
  · exact h k

theorem Intact.push_allowed (h : Intact sha256 db) {row : SessionRow} {acc : ClaimAccepted}
    (hrow : db.sessions claim.session = some row)
    (hacc : Accepted (recordOf claim.session row (db.tickets claim.session)) claim now acc)
    (hroom : (db.evidence claim.session).length < 2 ^ 63) (hnonce : claim.nonce.toNat < 2 ^ 63) :
    Intact sha256 ((db.pushEvidence claim.session
      (nextRow sha256 db claim .allowed signature)).setTicket claim.session
        (ticketOf claim signature)) := by
  intro k
  rw [setTicket_sessions, setTicket_tickets, setTicket_evidence, pushEvidence_sessions,
    pushEvidence_tickets, pushEvidence_evidence]
  split_ifs with hk
  · subst hk
    rw [hrow]
    exact (h.tracked hrow).push_allowed hacc hroom hnonce
  · exact h k

theorem Intact.setSession (h : Intact sha256 db) {row row' : SessionRow}
    (hrow : db.sessions session = some row) (hd : row'.depositedTotal = row.depositedTotal) :
    Intact sha256 (db.setSession session row') := by
  intro k
  rw [setSession_sessions, setSession_tickets, setSession_evidence]
  split_ifs with hk
  · subst hk
    exact (h.tracked hrow).row_changed hd
  · exact h k

theorem Intact.setSession_new (h : Intact sha256 db) {row : SessionRow} {order : List Pubkey}
    (hnone : db.sessions session = none) (hpos : 0 < row.depositedTotal.toInt) :
    Intact sha256 (Database.setSession { db with order := order } session row) := by
  intro k
  rw [setSession_sessions, setSession_tickets, setSession_evidence]
  split_ifs with hk
  · subst hk
    have hc := h k
    rw [hnone] at hc
    exact hc.opened hpos
  · exact h k

theorem Intact.wrote {call : StoreCall} {db' : Database} (h : Intact sha256 db)
    (hw : Wrote sha256 db call db') : Intact sha256 db' := by
  cases hw with
  | unchanged => exact h
  | opened hpos hnone => exact h.setSession_new hnone hpos
  | refused hrow _ hroom hd => exact h.push_refused hrow hd hroom
  | admitted hrow _ hroom hacc hnonce => exact h.push_allowed hrow hacc hroom hnonce
  | settled hrow => exact h.setSession hrow rfl
  | verified hrow => exact h.setSession hrow rfl

theorem Intact.openRecord (h : Intact sha256 db) {record : SessionRecord} {db' : Database}
    (ho : openRecord db record = .ok db') : Intact sha256 db' :=
  h.wrote (openRecord_wrote ho)

theorem Intact.markSettled (h : Intact sha256 db) : Intact sha256 (markSettled db session) :=
  h.wrote markSettled_wrote

/-- Every call keeps the store intact, whether it succeeds or fails. -/
theorem Intact.execute (h : Intact sha256 db) (call : StoreCall) :
    Intact sha256 (execute sha256 db call).2 :=
  h.wrote (execute_wrote h call)

end Steps

end AgentPay.StoreRuns
