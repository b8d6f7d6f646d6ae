import AgentPay.EvidenceRuns
import AgentPay.EvidenceTables

/-!
# The statements of the store

`db.rs` over the tables the migrations declare, each method as the statements it sends and
what it makes of the rows that come back. In the tables of the gateway every call answers and
leaves what the store of `SessionStore` does: what a key, a check, a reference or a trigger
refuses, such as a session without a deposit, is an error of the store too. Whatever
transactions anybody executes afterwards, the entries of a session stay in their places and
the session cannot be deleted; only an entry with a negative amount or nonce, which no check
keeps out, makes its chain unreadable.
-/
namespace AgentPay.StoreStatements
open SolanaRuntime EscrowState GatewayClaims EvidenceLog SessionStore KeyedTable NumberedRows
open EvidenceBinding EvidenceTables StoreRuns EvidenceRuns Fallible Runs

def readEntry (e : EvidenceColumns) : Except DbError EvidenceEntry := do
  let cumulativeAmount ← toU64 e.cumulativeAmount "cumulative_amount"
  let nonce ← toU64 e.nonce "nonce"
  pure ⟨e.sequenceId, cumulativeAmount, nonce, e.decision, e.prevHash, e.entryHash⟩

def loadEvidenceChain (t : Tables) (session : Pubkey) : Except DbError (List EvidenceEntry) :=
  (selectEvidence t session).mapM fun e => readEntry e.columns

/-- A refused statement is one more database error. -/
def query (t : Schema) (s : Statement) : Except DbError (Schema × ℕ) :=
  (execute t s).mapError fun _ => .constraint

def sessionsRow (session : Pubkey) (columns : SessionRow) : Except DbError SessionsRow :=
  if h : 0 < columns.depositedTotal.toInt then .ok ⟨session, columns, h⟩ else .error .constraint

def ticketsRow (session : Pubkey) (columns : TicketRow) : Except DbError TicketsRow :=
  if h : 0 < columns.cumulativeAmount.toInt ∧ 0 ≤ columns.nonce.toInt then
    .ok ⟨session, columns, h⟩
  else .error .constraint

def evidenceLogRow (session : Pubkey) (columns : EvidenceColumns) :
    Except DbError EvidenceLogRow :=
  if h : 0 ≤ columns.sequenceId.toInt then .ok ⟨session, columns, h⟩ else .error .constraint

def columnsOf (e : EvidenceRow) : EvidenceColumns where
  sequenceId := e.sequenceId
  cumulativeAmount := e.cumulativeAmount
  nonce := e.nonce
  decision := e.decision.asStr
  prevHash := e.prevHash
  entryHash := e.entryHash
  signature := some e.signature

def saveSession (t : Schema) (r : SessionRecord) : Except DbError (Schema × Bool) := do
  let depositedTotal ← toI64 r.depositedTotal "deposited_total"
  let row ← sessionsRow r.session
    ⟨r.agent, r.provider, r.mint, depositedTotal, r.expiresAt, false, r.chainVerified⟩
  let (t', inserted) ← query t (.sessions (.upsert row (fun _ => false) id))
  pure (t', inserted = 1)

def loadSession (t : Schema) (session : Pubkey) : Except DbError (Option SessionRecord) :=
  match findSession t.toTables session with
  | none => pure none
  | some row => do
    let record ← rowToRecord session row (findTicket t.toTables session)
    pure (some record)

def loadActiveSessions (t : Schema) : Except DbError (List SessionRecord) :=
  (t.sessions.rows.filter fun s => !s.columns.settled).mapM fun s =>
    rowToRecord s.sessionPubkey s.columns (findTicket t.toTables s.sessionPubkey)

def settle (s : SessionsRow) : SessionsRow :=
  ⟨s.sessionPubkey, { s.columns with settled := true }, s.checked⟩

def verify (s : SessionsRow) : SessionsRow :=
  ⟨s.sessionPubkey, { s.columns with chainVerified := true }, s.checked⟩

def markSessionSettled (t : Schema) (session : Pubkey) : Except DbError (Schema × Bool) := do
  let (t', settled) ← query t
    (.sessions (.update (fun s => s.sessionPubkey = session && !s.columns.settled) settle))
  pure (t', settled = 1)

/-- The number and the link of the next entry, from the last one there is. -/
def nextEntry (last : Option EvidenceColumns) : Except DbError (Int64 × Hash) :=
  match last with
  | some e => do
    let sequenceId ← okOr (e.sequenceId.checkedAdd 1)
      (DbError.outOfRange "sequence_id" (UInt64.ofNat (2 ^ 64 - 1)))
    pure (sequenceId, e.entryHash)
  | none => pure (0, zeroHash)

section Store
variable (sha256 : List UInt8 → Hash)

def appendEvidence (t : Schema) (claim : Claim) (decision : Decision) (signature : Signature) :
    Except DbError Schema := do
  let (sequenceId, prevHash) ←
    nextEntry ((selectEvidence t.toTables claim.session).getLast?.map EvidenceLogRow.columns)
  let row ← evidenceLogRow claim.session
    (columnsOf (evidenceRow sha256 claim decision signature sequenceId prevHash))
  let (t', _) ← query t (.evidenceLog (.insert row))
  pure t'

def recordDecision (t : Schema) (claim : Claim) (signature : Signature)
    (outcome : Except ClaimRejection ClaimAccepted) : Except DbError Schema :=
  match decisionOf outcome with
  | some decision => appendEvidence sha256 t claim decision signature
  | none => pure t

def lockedRecord (t : Schema) (session : Pubkey) (row : SessionRow) :
    Except DbError SessionRecord := do
  let depositedTotal ← toU64 row.depositedTotal "deposited_total"
  let (cumulativeAccepted, lastNonce, _) ←
    ticketColumns session (findTicket t.toTables session)
  pure ⟨session, row.agent, row.provider, row.mint, depositedTotal, row.expiresAt,
    cumulativeAccepted, lastNonce, none, row.settled, row.chainVerified⟩

/-- The conditional upsert, with the number of rows it wrote. -/
def writeTicket (t : Schema) (session : Pubkey) (columns : TicketRow) :
    Except DbError (Schema × ℕ) := do
  let row ← ticketsRow session columns
  query t (.claimTickets (.upsert row
    (fun old => old.columns.cumulativeAmount < columns.cumulativeAmount ∧
      old.columns.nonce < columns.nonce) fun _ => row))

def upsertClaimHighWaterMark (t : Schema) (claim : Claim) (signature : Signature) (now : Int64) :
    Except DbError (Schema × Except ClaimRejection ClaimAccepted) := do
  let row ← okOr (findSession t.toTables claim.session) .rowNotFound
  let record ← lockedRecord t claim.session row
  let outcome := evaluateClaim record claim now
  let t₁ ← recordDecision sha256 t claim signature outcome
  match outcome with
  | .error rejection => pure (t₁, .error rejection)
  | .ok accepted => do
    let cumulativeAmount ← toI64 accepted.cumulativeAmount "cumulative_amount"
    let nonce ← toI64 accepted.nonce "nonce"
    let (t₂, written) ← writeTicket t₁ claim.session
      ⟨cumulativeAmount, nonce, claim.expiresAt, signature⟩
    if written = 1 then pure (t₂, .ok accepted) else pure (t, .error .notMonotonic)

def admitClaim (t : Schema) (claim : Claim) (signature : Signature) (now : Int64) :
    Except StoreError (Schema × Except ClaimRejection ClaimAccepted) :=
  (upsertClaimHighWaterMark sha256 t claim signature now).mapError fun
    | .rowNotFound => .unknown
    | e => e.toStoreError

end Store

def openRecord (t : Schema) (r : SessionRecord) : Except StoreError Schema := do
  let (t', inserted) ← (saveSession t r).mapError DbError.toStoreError
  require (inserted = true) .alreadyOpen
  pure t'

def getRecord (t : Schema) (session : Pubkey) : Except StoreError SessionRecord := do
  let found ← (loadSession t session).mapError DbError.toStoreError
  okOr found .unknown

def markSettled (t : Schema) (session : Pubkey) : Except StoreError Schema :=
  ((markSessionSettled t session).map Prod.fst).mapError DbError.toStoreError

def markChainVerified (t : Schema) (session : Pubkey) : Except StoreError Schema := do
  let marked := query t (.sessions (.update (fun s => s.sessionPubkey = session) verify))
  let (t', done) ← marked.mapError DbError.toStoreError
  require (done ≠ 0) .unknown
  pure t'

/-- The calls of the store, as statements. -/
def call (sha256 : List UInt8 → Hash) (t : Schema) : StoreCall → StoreReply × Schema
  | .openSession record =>
    let (result, t') := commit t ((openRecord t record).map fun t' => (t', ()))
    (.done result, t')
  | .getSession session => (.found (getRecord t session), t)
  | .admitClaim claim signature now =>
    let (result, t') := commit t (admitClaim sha256 t claim signature now)
    (.decided result, t')
  | .markSettled session =>
    let (result, t') := commit t ((markSettled t session).map fun t' => (t', ()))
    (.done result, t')
  | .markChainVerified session =>
    let (result, t') := commit t ((markChainVerified t session).map fun t' => (t', ()))
    (.done result, t')
  | .restart =>
    (.done (((loadActiveSessions t).map fun _ => ()).mapError DbError.toStoreError), t)

/-! ### The tables hold the store -/

/-- What is read from the tables is what the store holds. -/
structure Holds (t : Tables) (db : Database) : Prop where
  order : t.sessions.rows.map SessionsRow.sessionPubkey = db.order
  sessions : ∀ k, findSession t k = db.sessions k
  tickets : ∀ k, findTicket t k = db.tickets k
  evidence : ∀ k, (selectEvidence t k).map EvidenceLogRow.columns = (db.evidence k).map columnsOf

theorem holds_empty : Holds Schema.empty.toTables Database.empty :=
  ⟨rfl, fun _ => rfl, fun _ => rfl, fun _ => rfl⟩

theorem sameSession_key (a b : SessionsRow) :
    sameSession a b = decide (a.sessionPubkey = b.sessionPubkey) := rfl

theorem sameTicket_key (a b : TicketsRow) :
    sameTicket a b = decide (a.sessionPubkey = b.sessionPubkey) := rfl

section Rows
variable {t : Tables} {k : Pubkey} {row : SessionRow}

theorem mem_of_findSession (h : findSession t k = some row) :
    ∃ s ∈ t.sessions.rows, s.sessionPubkey = k := by
  obtain ⟨s, hs, -⟩ := Option.map_eq_some_iff.mp h
  have hk := List.find?_some hs
  exact ⟨s, List.mem_of_find?_eq_some hs, of_decide_eq_true hk⟩

theorem ne_of_findSession (h : findSession t k = none) :
    ∀ s ∈ t.sessions.rows, s.sessionPubkey ≠ k := by
  intro s hs hk
  rw [findSession, Option.map_eq_none_iff, List.find?_eq_none] at h
  exact h s hs (decide_eq_true hk)

theorem findSession_row {s : SessionsRow} (hs : s ∈ t.sessions.rows) :
    findSession t s.sessionPubkey = some s.columns := by
  have hfind : t.sessions.rows.find? (fun a => a.sessionPubkey = s.sessionPubkey) = some s := by
    refine Table.find?_eq_some_of_mem (fun a b => ?_) hs (by simp) fun b hb => ?_
    · simp only [sameSession, eq_comm]
    · simpa [sameSession] using hb
  rw [findSession, hfind]
  rfl

theorem findSession_concat {l : List SessionsRow} {s : SessionsRow} :
    ((l ++ [s]).find? fun a => a.sessionPubkey = k).map SessionsRow.columns =
      ((l.find? fun a => a.sessionPubkey = k).map SessionsRow.columns).or
        (if s.sessionPubkey = k then some s.columns else none) := by
  rw [List.find?_append, List.find?_singleton]
  by_cases hk : s.sessionPubkey = k
  · simp [hk]
  · simp [hk]

end Rows

/-- What a statement of a call comes to. -/
inductive Agrees {α : Type} : Except StoreError (Schema × α) →
    Except StoreError (Database × α) → Prop
  | ok {t : Schema} {db : Database} {a : α} : Holds t.toTables db →
      Agrees (.ok (t, a)) (.ok (db, a))
  | error {e : StoreError} : Agrees (.error e) (.error e)

theorem Agrees.commit {α : Type} {t : Schema} {db : Database}
    {x : Except StoreError (Schema × α)} {y : Except StoreError (Database × α)}
    (h : Holds t.toTables db) (ha : Agrees x y) : (commit t x).1 = (commit db y).1 ∧
      Holds (commit t x).2.toTables (commit db y).2 := by
  cases ha with
  | ok h' => exact ⟨rfl, h'⟩
  | error => exact ⟨rfl, h⟩

section Sessions
variable {t t' : Schema} {db : Database} {n : ℕ} {k : Pubkey}

theorem Holds.setSession {row : SessionRow} {order : List Pubkey} (h : Holds t.toTables db)
    (horder : t'.sessions.rows.map SessionsRow.sessionPubkey = order)
    (hfind : ∀ j, findSession t'.toTables j = if j = k then some row else db.sessions j)
    (htickets : t'.claimTickets.rows = t.claimTickets.rows)
    (hevidence : t'.evidenceLog = t.evidenceLog) :
    Holds t'.toTables (Database.setSession { db with order := order } k row) := by
  refine ⟨horder, fun j => ?_, fun j => ?_, fun j => ?_⟩
  · rw [hfind, setSession_sessions]
  · rw [setSession_tickets, ← h.tickets, findTicket, findTicket, htickets]
  · rw [setSession_evidence, ← h.evidence, selectEvidence, selectEvidence, hevidence]

/-- What an update of one session leaves to be found. -/
theorem findSession_updated {only : SessionRow → Bool} {g : SessionRow → SessionRow}
    {f : SessionsRow → SessionsRow} {l : List SessionsRow}
    (hkey : ∀ s, (f s).sessionPubkey = s.sessionPubkey) (hf : ∀ s, (f s).columns = g s.columns)
    (j : Pubkey) :
    ((l.map (Table.updated (fun s => s.sessionPubkey = k && only s.columns) f)).find?
        fun s => s.sessionPubkey = j).map SessionsRow.columns =
      ((l.find? fun s => s.sessionPubkey = j).map SessionsRow.columns).map fun row =>
        if j = k ∧ only row then g row else row := by
  rw [find?_updated fun s _ => hkey s, Option.map_map, Option.map_map]
  apply Option.map_congr
  intro s hs
  have hsj : s.sessionPubkey = j := by simpa using List.find?_some hs
  simp only [Function.comp_apply, Table.updated, hsj, Bool.and_eq_true, decide_eq_true_eq]
  split_ifs
  · exact hf s
  · rfl

/-- What an update of one session leaves, where its row is as the statement wants it. -/
structure Updated (t t' : Schema) (db : Database) (k : Pubkey) (only : SessionRow → Bool)
    (g : SessionRow → SessionRow) : Prop where
  order : t'.sessions.rows.map SessionsRow.sessionPubkey = db.order
  sessions : ∀ j, findSession t'.toTables j =
    (db.sessions j).map fun row => if j = k ∧ only row then g row else row
  tickets : t'.claimTickets.rows = t.claimTickets.rows
  evidence : t'.evidenceLog = t.evidenceLog

theorem execute_update {only : SessionRow → Bool} {g : SessionRow → SessionRow}
    {f : SessionsRow → SessionsRow} (h : Holds t.toTables db)
    (hkey : ∀ s, (f s).sessionPubkey = s.sessionPubkey) (hf : ∀ s, (f s).columns = g s.columns) :
    ∃ t', execute t (.sessions (.update (fun s => s.sessionPubkey = k && only s.columns) f)) =
        .ok (t', if (db.sessions k).any only then 1 else 0) ∧ Updated t t' db k only g := by
  let p (s : SessionsRow) : Bool := s.sessionPubkey = k && only s.columns
  obtain ⟨sessions, hrun, hrows⟩ := @Change.updated_keeping SessionsRow sameSession t.sessions p f
    _ _ SessionsRow.sessionPubkey sameSession_key fun s _ => hkey s
  have hpk : ∀ s, (Table.updated p f s).sessionPubkey = s.sessionPubkey := by
    intro s
    unfold Table.updated
    split_ifs
    · exact hkey s
    · rfl
  obtain ⟨t', hok, hsessions, htickets, hevidence⟩ := @execute_sessions t _ (.update p f) sessions
    hrun rfl fun s hs => ⟨_, hrows ▸ List.mem_map_of_mem hs, hpk s⟩
  have hcount : t.sessions.rows.countP p = if (db.sessions k).any only then 1 else 0 := by
    rw [countP_key sameSession_key (fun s => only s.columns) k, ← h.sessions, findSession,
      Option.any_map]
  rw [hcount] at hok
  refine ⟨t', hok, ?_, fun j => ?_, htickets, hevidence⟩
  · rw [hsessions, hrows, List.map_map, ← h.order]
    exact List.map_congr_left fun s _ => hpk s
  · rw [← h.sessions, findSession, hsessions, hrows]
    exact findSession_updated hkey hf j

theorem Updated.found {only : SessionRow → Bool} {g : SessionRow → SessionRow} {row : SessionRow}
    (h : Holds t.toTables db) (hu : Updated t t' db k only g) (hrow : db.sessions k = some row)
    (honly : only row = true) : Holds t'.toTables (db.setSession k (g row)) := by
  refine h.setSession hu.order (fun j => ?_) hu.tickets hu.evidence
  rw [hu.sessions]
  by_cases hj : j = k
  · simp [hj, hrow, honly]
  · simp [hj]

theorem Updated.missed {only : SessionRow → Bool} {g : SessionRow → SessionRow}
    (h : Holds t.toTables db) (hu : Updated t t' db k only g)
    (hnone : (db.sessions k).any only = false) : Holds t'.toTables db := by
  refine ⟨hu.order, fun j => ?_, fun j => ?_, fun j => ?_⟩
  · rw [hu.sessions]
    rcases hj : db.sessions j with _ | row
    · rfl
    · rw [Option.map_some, if_neg]
      rintro ⟨rfl, honly⟩
      rw [hj, Option.any_some, honly] at hnone
      cases hnone
  · rw [← h.tickets, findTicket, findTicket, hu.tickets]
  · rw [← h.evidence, selectEvidence, selectEvidence, hu.evidence]

theorem query_ok {s : Statement} (h : execute t s = .ok (t', n)) : query t s = .ok (t', n) := by
  rw [query, h]
  rfl

theorem markSettled_agrees (h : Holds t.toTables db) : ∃ t', markSettled t k = .ok t' ∧
    Holds t'.toTables (SessionStore.markSettled db k) := by
  obtain ⟨t', hok, hu⟩ := @execute_update t db k (fun row => !row.settled)
    (fun row => { row with settled := true }) settle h (fun _ => rfl) fun _ => rfl
  have hdone : markSettled t k = .ok t' := by
    simp only [markSettled, markSessionSettled, query_ok hok, ok_bind]
    rfl
  refine ⟨t', hdone, ?_⟩
  rw [SessionStore.markSettled, SessionStore.markSessionSettled]
  rcases hrow : db.sessions k with _ | row
  · exact hu.missed h (by rw [hrow]; rfl)
  · rcases hs : row.settled with _ | _
    · simp only [hs, Bool.false_eq_true, if_false]
      exact hu.found h hrow (by rw [hs]; rfl)
    · simp only [hs, if_true]
      exact hu.missed h (by simp [hrow, hs])

theorem markChainVerified_agrees (h : Holds t.toTables db) :
    Agrees ((markChainVerified t k).map fun t' => (t', ()))
      ((SessionStore.markChainVerified db k).map fun db' => (db', ())) := by
  obtain ⟨t', hok, hu⟩ := @execute_update t db k (fun _ => true)
    (fun row => { row with chainVerified := true }) verify h (fun _ => rfl) fun _ => rfl
  simp only [Bool.and_true] at hok
  simp only [markChainVerified, query_ok hok, Except.mapError, ok_bind,
    SessionStore.markChainVerified]
  rcases hrow : db.sessions k with _ | row
  · exact .error
  · exact .ok (hu.found h hrow rfl)

theorem execute_insertSession {s : SessionsRow} (h : Holds t.toTables db)
    (hnone : db.sessions s.sessionPubkey = none) : ∃ t',
    execute t (.sessions (.upsert s (fun _ => false) id)) = .ok (t', 1) ∧
      Holds t'.toTables (Database.setSession { db with order := db.order ++ [s.sessionPubkey] }
        s.sessionPubkey s.columns) := by
  have hfresh : ∀ a ∈ t.sessions.rows, sameSession a s = false := by
    intro a ha
    exact decide_eq_false (ne_of_findSession (by rw [h.sessions, hnone]) a ha)
  obtain ⟨sessions, hrun, hrows⟩ := @Change.upsert_fresh _ _ t.sessions id s (fun _ => false) hfresh
  obtain ⟨t', hok, hsessions, htickets, hevidence⟩ := execute_sessions hrun rfl fun a ha =>
    ⟨a, hrows ▸ List.mem_append_left _ ha, rfl⟩
  refine ⟨t', hok, h.setSession ?_ (fun j => ?_) htickets hevidence⟩
  · rw [hsessions, hrows, List.map_append, h.order]
    rfl
  · rw [findSession, hsessions, hrows, findSession_concat, ← findSession, h.sessions]
    by_cases hj : j = s.sessionPubkey
    · rw [hj, hnone]
      simp
    · rw [if_neg (Ne.symm hj), if_neg hj, Option.or_none]

/-- The insertion of a session that there is already. -/
theorem execute_insertSession_again {s : SessionsRow} {row : SessionRow} (h : Holds t.toTables db)
    (hrow : db.sessions s.sessionPubkey = some row) : ∃ t',
    execute t (.sessions (.upsert s (fun _ => false) id)) = .ok (t', 0) ∧ Holds t'.toTables db := by
  have hany : (t.sessions.rows.any fun a => sameSession a s) = true := by
    obtain ⟨a, ha, hk⟩ := mem_of_findSession ((h.sessions _).trans hrow)
    exact List.any_eq_true.mpr ⟨a, ha, decide_eq_true hk⟩
  obtain ⟨t', hok, hu⟩ := @execute_update t db s.sessionPubkey (fun _ => false) id id h
    (fun _ => rfl) fun _ => rfl
  have hnone : (db.sessions s.sessionPubkey).any (fun _ => false) = false := by simp
  refine ⟨t', ?_, hu.missed h hnone⟩
  rw [hnone, if_neg Bool.false_ne_true] at hok
  rw [← hok]
  simp only [EvidenceTables.execute, Change.run, hany, if_true, Change.removes]
  rfl

theorem sessionsRow_eq {columns : SessionRow} (h : 0 < columns.depositedTotal.toInt) :
    sessionsRow k columns = .ok ⟨k, columns, h⟩ := dif_pos h

theorem openRecord_agrees {r : SessionRecord} (h : Holds t.toTables db) :
    Agrees ((openRecord t r).map fun t' => (t', ()))
      ((SessionStore.openRecord db r).map fun db' => (db', ())) := by
  simp only [openRecord, saveSession, SessionStore.openRecord, SessionStore.saveSession]
  rcases hd : toI64 r.depositedTotal "deposited_total" with e | depositedTotal
  · exact .error
  · simp only [ok_bind]
    by_cases hpos : 0 < depositedTotal
    · rw [require_bind_of hpos]
      let s : SessionsRow := ⟨r.session, ⟨r.agent, r.provider, r.mint, depositedTotal, r.expiresAt,
        false, r.chainVerified⟩, Int64.lt_iff_toInt_lt.mp hpos⟩
      have hs : sessionsRow r.session s.columns = .ok s := sessionsRow_eq s.checked
      rw [hs]
      simp only [ok_bind]
      rcases hrow : db.sessions r.session with _ | row
      · obtain ⟨t', hok, hh⟩ := @execute_insertSession t db s h hrow
        rw [query_ok hok]
        exact .ok hh
      · obtain ⟨t', hok, -⟩ := @execute_insertSession_again t db s row h hrow
        rw [query_ok hok]
        exact .error
    · have hneg : ¬0 < depositedTotal.toInt := fun hp => hpos (Int64.lt_iff_toInt_lt.mpr hp)
      rw [require_bind_of_not hpos, sessionsRow, dif_neg hneg]
      exact .error

end Sessions

section Evidence
variable {sha256 : List UInt8 → Hash} {t t' : Schema} {db : Database} {claim : Claim}
variable {signature : Signature} {row : SessionRow} {d : Decision} {k : Pubkey}

theorem Holds.numbered (h : Holds t.toTables db) (hi : Intact sha256 db) (k : Pubkey) :
    Numbered (fun e : EvidenceLogRow => e.columns.sequenceId.toInt)
      (selectEvidence t.toTables k) := by
  intro i hlt
  have hcols := h.evidence k
  have hlen : i < (db.evidence k).length := by
    have hsame := congrArg List.length hcols
    rw [List.length_map, List.length_map] at hsame
    omega
  have hrow : (selectEvidence t.toTables k)[i].columns = columnsOf (db.evidence k)[i] := by
    have hget := congrArg (fun l => l[i]?) hcols
    simpa [hlt, hlen] using hget
  simp only [hrow]
  exact (hi k).linked.numbered i hlen

theorem nextEntry_columnsOf (last : Option EvidenceRow) :
    nextEntry (last.map columnsOf) = nextLink last := by
  cases last with
  | none => rfl
  | some e => rfl

/-- The query for the last entry answers as the store does. -/
theorem Holds.nextEntry (h : Holds t.toTables db) (k : Pubkey) :
    nextEntry ((selectEvidence t.toTables k).getLast?.map EvidenceLogRow.columns) =
      nextLink (db.evidence k).getLast? := by
  rw [← nextEntry_columnsOf, ← List.getLast?_map, ← List.getLast?_map, h.evidence]

theorem Holds.pushEvidence {e : EvidenceRow} {r : EvidenceLogRow} (h : Holds t.toTables db)
    (hk : r.sessionPubkey = k) (hr : r.columns = columnsOf e)
    (habove : ∀ a ∈ t.evidenceLog.rows, a.sessionPubkey = k →
      a.columns.sequenceId.toInt ≤ r.columns.sequenceId.toInt)
    (hsessions : t'.sessions = t.sessions) (htickets : t'.claimTickets = t.claimTickets)
    (hrows : t'.evidenceLog.rows = t.evidenceLog.rows ++ [r]) :
    Holds t'.toTables (db.pushEvidence k e) := by
  refine ⟨?_, fun j => ?_, fun j => ?_, fun j => ?_⟩
  · rw [hsessions]
    exact h.order
  · rw [findSession, hsessions]
    exact h.sessions j
  · rw [findTicket, htickets]
    exact h.tickets j
  · have hunique := sequence_nodup t'.toTables j
    rw [selectEvidence, pushEvidence_evidence]
    rw [hrows, List.filter_append, List.filter_singleton] at hunique ⊢
    by_cases hj : j = k
    · subst hj
      simp only [hk, decide_true, cond_true, if_true] at hunique ⊢
      rw [ordered_concat hunique, List.map_append, List.map_append, ← h.evidence, selectEvidence,
        List.map_singleton, List.map_singleton, hr]
      intro a ha
      rw [List.mem_filter, decide_eq_true_eq] at ha
      exact habove a ha.1 ha.2
    · have hne : ¬r.sessionPubkey = j := fun hrj => hj (hrj.symm.trans hk)
      simp only [hne, decide_false, cond_false, List.append_nil, hj, if_false]
      exact h.evidence j

/-- The entries of a session are numbered below their count. -/
theorem Holds.sequence_lt {k : Pubkey} {a : EvidenceLogRow} (h : Holds t.toTables db)
    (hi : Intact sha256 db) (ha : a ∈ t.evidenceLog.rows) (hak : a.sessionPubkey = k) :
    a.columns.sequenceId.toInt < (db.evidence k).length := by
  have hmem : a ∈ t.evidenceLog.rows.filter fun e => e.sessionPubkey = k :=
    List.mem_filter.mpr ⟨ha, decide_eq_true hak⟩
  have hlt := (h.numbered hi k).num_lt hmem
  have hlen : (t.evidenceLog.rows.filter fun e => e.sessionPubkey = k).length =
      (db.evidence k).length := by
    have hsame := congrArg List.length (h.evidence k)
    simpa [selectEvidence] using hsame
  rwa [hlen] at hlt

/-- The insertion of the next entry goes through while there is a number for it. -/
theorem appendEvidence_agrees (h : Holds t.toTables db) (hi : Intact sha256 db)
    (hrow : db.sessions claim.session = some row)
    (hroom : (db.evidence claim.session).length < 2 ^ 63) :
    ∃ t', appendEvidence sha256 t claim d signature = .ok t' ∧
      Holds t'.toTables (db.pushEvidence claim.session (nextRow sha256 db claim d signature)) ∧
        t'.sessions = t.sessions := by
  have hseq : (nextRow sha256 db claim d signature).sequenceId.toInt =
      (db.evidence claim.session).length := Int64.toInt_ofNat_of_lt hroom
  have hchecked : 0 ≤ (columnsOf (nextRow sha256 db claim d signature)).sequenceId.toInt := by
    change 0 ≤ (nextRow sha256 db claim d signature).sequenceId.toInt
    omega
  let r : EvidenceLogRow :=
    ⟨claim.session, columnsOf (nextRow sha256 db claim d signature), hchecked⟩
  have hbelow : ∀ a ∈ t.evidenceLog.rows, a.sessionPubkey = claim.session →
      a.columns.sequenceId.toInt < r.columns.sequenceId.toInt := by
    intro a ha hak
    exact (h.sequence_lt hi ha hak).trans_eq hseq.symm
  have hfresh : ∀ a ∈ t.evidenceLog.rows, sameSequence a r = false := by
    intro a ha
    apply decide_eq_false
    rintro ⟨hak, hsame⟩
    have hlt := hbelow a ha hak
    rw [hsame] at hlt
    exact absurd hlt (lt_irrefl _)
  obtain ⟨t', hok, hsessions, htickets, hrows⟩ :=
    execute_evidenceLog hfresh (mem_of_findSession ((h.sessions _).trans hrow))
  refine ⟨t', ?_, h.pushEvidence rfl rfl (fun a ha hak => (hbelow a ha hak).le) hsessions htickets
    hrows, hsessions⟩
  have hlink := nextLink_eq (hi claim.session).linked
  rw [if_pos hroom] at hlink
  have hr : evidenceLogRow claim.session (columnsOf (nextRow sha256 db claim d signature)) =
      .ok r := dif_pos hchecked
  rw [nextRow] at hr
  simp only [appendEvidence, h.nextEntry, hlink, ok_bind, hr, query_ok hok]
  rfl

theorem appendEvidence_full (h : Holds t.toTables db) (hi : Intact sha256 db)
    (hfull : 2 ^ 63 ≤ (db.evidence claim.session).length) :
    appendEvidence sha256 t claim d signature =
      .error (.outOfRange "sequence_id" (UInt64.ofNat (2 ^ 64 - 1))) := by
  have hlink := nextLink_eq (hi claim.session).linked
  rw [if_neg (Nat.not_lt.mpr hfull)] at hlink
  rw [appendEvidence, h.nextEntry, hlink]
  rfl

theorem Holds.setTicket {claimTickets : Table sameTicket} {ticket : TicketRow}
    (h : Holds t.toTables db) (ht : t'.toTables = { t.toTables with claimTickets := claimTickets })
    (hfind : ∀ j, findTicket t'.toTables j = if j = k then some ticket else db.tickets j) :
    Holds t'.toTables (db.setTicket k ticket) := by
  have hsessions : t'.sessions = t.sessions := by rw [ht]
  have hevidence : t'.evidenceLog = t.evidenceLog := by rw [ht]
  refine ⟨?_, fun j => ?_, fun j => ?_, fun j => ?_⟩
  · rw [hsessions]
    exact h.order
  · rw [findSession, hsessions]
    exact h.sessions j
  · rw [hfind, setTicket_tickets]
  · rw [selectEvidence, hevidence]
    exact h.evidence j

theorem ne_of_findTicket {t : Tables} (h : findTicket t k = none) :
    ∀ r ∈ t.claimTickets.rows, r.sessionPubkey ≠ k := by
  intro r hr hk
  rw [findTicket, Option.map_eq_none_iff, List.find?_eq_none] at h
  exact h r hr (decide_eq_true hk)

theorem execute_firstTicket {r : TicketsRow} {only : TicketsRow → Bool}
    {f : TicketsRow → TicketsRow} (h : Holds t.toTables db)
    (hrow : db.sessions r.sessionPubkey = some row) (hnone : db.tickets r.sessionPubkey = none) :
    ∃ t', execute t (.claimTickets (.upsert r only f)) = .ok (t', 1) ∧
      Holds t'.toTables (db.setTicket r.sessionPubkey r.columns) := by
  have hfree := ne_of_findTicket ((h.tickets _).trans hnone)
  obtain ⟨claimTickets, hrun, hrows⟩ := @Change.upsert_fresh _ _ t.claimTickets f r only
    fun a ha => decide_eq_false (hfree a ha)
  obtain ⟨t', hok, ht⟩ := execute_claimTickets hrun fun a ha => by
    rw [hrows, List.mem_append, List.mem_singleton] at ha
    rcases ha with ha | rfl
    · exact t.referenced.1 a ha
    · exact mem_of_findSession ((h.sessions _).trans hrow)
  refine ⟨t', hok, h.setTicket ht fun j => ?_⟩
  rw [ht, findTicket, hrows, List.find?_append, List.find?_singleton, Option.map_or, ← findTicket,
    h.tickets]
  by_cases hj : j = r.sessionPubkey
  · rw [hj, hnone]
    simp
  · simp [hj, Ne.symm hj]

theorem execute_nextTicket {r : TicketsRow} {only : TicketRow → Bool} {old : TicketRow}
    (h : Holds t.toTables db) (hold : db.tickets r.sessionPubkey = some old)
    (honly : only old = true) :
    ∃ t', execute t (.claimTickets (.upsert r (fun a => only a.columns) fun _ => r)) =
        .ok (t', 1) ∧ Holds t'.toTables (db.setTicket r.sessionPubkey r.columns) := by
  let p (a : TicketsRow) : Bool := sameTicket a r && only a.columns
  have hkey : ∀ a, p a = true → r.sessionPubkey = a.sessionPubkey := by
    intro a ha
    exact (of_decide_eq_true (Bool.and_eq_true_iff.mp ha).1).symm
  have hpk : ∀ a, (Table.updated p (fun _ => r) a).sessionPubkey = a.sessionPubkey := by
    intro a
    unfold Table.updated
    split_ifs with ha
    · exact hkey a ha
    · rfl
  obtain ⟨a, hfind, ha⟩ := Option.map_eq_some_iff.mp ((h.tickets _).trans hold)
  have hak : a.sessionPubkey = r.sessionPubkey := by simpa using List.find?_some hfind
  have hany : (t.claimTickets.rows.any fun a => sameTicket a r) = true :=
    List.any_eq_true.mpr ⟨a, List.mem_of_find?_eq_some hfind, decide_eq_true hak⟩
  have hcount : t.claimTickets.rows.countP p = 1 := by
    have hone := @countP_key _ _ t.claimTickets _ _ _ sameTicket_key
      (fun a => only a.columns) r.sessionPubkey
    rw [hfind, Option.any_some, ha, honly] at hone
    exact hone
  obtain ⟨claimTickets, hrun, hrows⟩ := @Change.updated_keeping TicketsRow sameTicket t.claimTickets
    p (fun _ => r) _ _ TicketsRow.sessionPubkey sameTicket_key hkey
  have hrun' : (Change.upsert r (fun a => only a.columns) fun _ => r).run t.claimTickets =
      .ok (claimTickets, 1) := by
    rw [hcount] at hrun
    simp only [Change.run, hany, if_true]
    exact hrun
  obtain ⟨t', hok, ht⟩ := execute_claimTickets hrun' fun b hb => by
    rw [hrows, List.mem_map] at hb
    obtain ⟨c, hc, rfl⟩ := hb
    rw [hpk]
    exact t.referenced.1 c hc
  refine ⟨t', hok, h.setTicket ht fun j => ?_⟩
  rw [ht, findTicket, hrows, find?_updated hkey, ← h.tickets, findTicket]
  by_cases hj : j = r.sessionPubkey
  · rw [hj, hfind, if_pos rfl]
    simp [Table.updated, p, sameTicket, hak, ha, honly]
  · rw [if_neg hj, Option.map_map]
    apply Option.map_congr
    intro b hb
    have hbj : b.sessionPubkey = j := by simpa using List.find?_some hb
    have hne : ¬b.sessionPubkey = r.sessionPubkey := fun hbr => hj (hbj.symm.trans hbr)
    simp [Table.updated, p, sameTicket, hne]

theorem writeTicket_agrees {db' : Database} {ticket : TicketRow} (h : Holds t.toTables db)
    (hrow : db.sessions k = some row)
    (hchecked : 0 < ticket.cumulativeAmount.toInt ∧ 0 ≤ ticket.nonce.toInt)
    (hw : SessionStore.writeTicket db k ticket = some db') :
    ∃ t', writeTicket t k ticket = .ok (t', 1) ∧ Holds t'.toTables db' := by
  let r : TicketsRow := ⟨k, ticket, hchecked⟩
  let only (old : TicketRow) : Bool :=
    old.cumulativeAmount < ticket.cumulativeAmount ∧ old.nonce < ticket.nonce
  have hr : ticketsRow k ticket = .ok r := dif_pos hchecked
  rw [SessionStore.writeTicket] at hw
  rcases hold : db.tickets k with _ | old
  · rw [hold] at hw
    cases hw
    obtain ⟨t', hok, hh⟩ := @execute_firstTicket t db row r (fun a => only a.columns) (fun _ => r) h
      hrow hold
    exact ⟨t', by simp only [writeTicket, hr, ok_bind]; exact query_ok hok, hh⟩
  · rw [hold] at hw
    simp only at hw
    split_ifs at hw with honly
    cases hw
    obtain ⟨t', hok, hh⟩ := @execute_nextTicket t db r only old h hold (decide_eq_true honly)
    exact ⟨t', by simp only [writeTicket, hr, ok_bind]; exact query_ok hok, hh⟩

end Evidence

section Admitting
variable {sha256 : List UInt8 → Hash} {t : Schema} {db : Database} {claim : Claim}
variable {signature : Signature} {now : Int64}

theorem lockedRecord_agrees (h : Holds t.toTables db) (k : Pubkey) (row : SessionRow) :
    lockedRecord t k row = SessionStore.lockedRecord db k row := by
  rw [lockedRecord, SessionStore.lockedRecord, h.tickets]

theorem accepted_columns {record : SessionRecord} {acc : ClaimAccepted}
    (h : Accepted record claim now acc) :
    acc.cumulativeAmount = claim.cumulativeAmount ∧ acc.nonce = claim.nonce :=
  ⟨congrArg ClaimAccepted.cumulativeAmount h.result, congrArg ClaimAccepted.nonce h.result⟩

theorem recordDecision_full {outcome : Except ClaimRejection ClaimAccepted} {d : Decision}
    (h : Holds t.toTables db) (hi : Intact sha256 db) (hd : decisionOf outcome = some d)
    (hfull : 2 ^ 63 ≤ (db.evidence claim.session).length) :
    recordDecision sha256 t claim signature outcome =
      .error (.outOfRange "sequence_id" (UInt64.ofNat (2 ^ 64 - 1))) := by
  rw [recordDecision, hd]
  exact appendEvidence_full h hi hfull

theorem admitClaim_agrees (h : Holds t.toTables db) (hi : Intact sha256 db) :
    Agrees (admitClaim sha256 t claim signature now)
      (SessionStore.admitClaim sha256 db claim signature now) := by
  rcases hrow : db.sessions claim.session with _ | row
  · rw [admitClaim_untracked hrow, admitClaim, upsertClaimHighWaterMark, h.sessions, hrow]
    exact .error
  · have hcases := @admit_cases sha256 db claim signature now row hrow (hi.tracked hrow)
    have hlocked : ∀ record, evaluateClaim { record with highestClaim := none } claim now =
        evaluateClaim record claim now := fun _ => rfl
    simp only [admitClaim, upsertClaimHighWaterMark, h.sessions, hrow, okOr, ok_bind,
      lockedRecord_agrees h, lockedRecord_eq (hi.tracked hrow), hlocked]
    revert hcases
    generalize SessionStore.admitClaim sha256 db claim signature now = y
    intro hcases
    cases hcases with
    | settled hs ho =>
      rw [ho]
      exact .ok h
    | @refused r d hs ho hd hroom =>
      obtain ⟨t', hok, hh, -⟩ := @appendEvidence_agrees _ t db claim signature row d h hi hrow hroom
      simp only [ho, recordDecision, hd, hok, ok_bind]
      exact .ok hh
    | @accepted acc ho hroom hnonce =>
      obtain ⟨t₁, hok, hh, -⟩ :=
        @appendEvidence_agrees _ t db claim signature row .allowed h hi hrow hroom
      have hacc := evaluateClaim_eq_ok.mp ho
      have hwithin := accepted_within (hi.tracked hrow) hacc
      have hw := @writeTicket_accepted sha256 db claim signature now row acc
        (nextRow sha256 db claim .allowed signature) (hi.tracked hrow) hacc hnonce
      have hchecked : 0 < (ticketOf claim signature).cumulativeAmount.toInt ∧
          0 ≤ (ticketOf claim signature).nonce.toInt := by
        have hcum := UInt64.toInt_toInt64 hwithin.2
        have hn := UInt64.toInt_toInt64 hnonce
        have habove := hacc.above
        simp only [ticketOf]
        omega
      obtain ⟨t₂, hok₂, hh₂⟩ := writeTicket_agrees hh hrow hchecked hw
      obtain ⟨hamount, hnext⟩ := accepted_columns hacc
      rw [ticketOf] at hok₂
      simp only [ho, recordDecision, decisionOf, hok, ok_bind, hamount, hnext,
        toI64_of_lt hwithin.2, toI64_of_lt hnonce, hok₂, if_true]
      exact .ok hh₂
    | full hs hfull =>
      obtain ⟨d, hd⟩ := @decisionOf_open claim now _ hs
      simp only [recordDecision_full h hi hd hfull, error_bind]
      exact .error
    | @nonceTooLarge acc ho hnonce =>
      have hacc := evaluateClaim_eq_ok.mp ho
      have hwithin := accepted_within (hi.tracked hrow) hacc
      have hd : decisionOf (.ok acc) = some .allowed := rfl
      by_cases hroom : (db.evidence claim.session).length < 2 ^ 63
      · obtain ⟨t₁, hok, -, -⟩ :=
          @appendEvidence_agrees _ t db claim signature row .allowed h hi hrow hroom
        have htoo : toI64 claim.nonce "nonce" = .error (.outOfRange "nonce" claim.nonce) :=
          if_neg (Nat.not_lt.mpr hnonce)
        obtain ⟨hamount, hnext⟩ := accepted_columns hacc
        simp only [ho, recordDecision, hd, hok, ok_bind, hamount, hnext, toI64_of_lt hwithin.2,
          htoo, error_bind]
        exact .error
      · simp only [ho, recordDecision_full h hi hd (Nat.le_of_not_lt hroom), error_bind]
        exact .error

end Admitting

/-! ### Calls -/

section Calls
variable {sha256 : List UInt8 → Hash} {t : Schema} {db : Database}

theorem loadSession_agrees (h : Holds t.toTables db) (k : Pubkey) :
    loadSession t k = SessionStore.loadSession db k := by
  cases hrow : db.sessions k with
  | none =>
    have hfind : findSession t.toTables k = none := (h.sessions k).trans hrow
    have hstatements : loadSession t k = pure none := by rw [loadSession, hfind]
    have hstore : SessionStore.loadSession db k = pure none := by
      rw [SessionStore.loadSession, hrow]
    rw [hstatements, hstore]
  | some row =>
    have hfind : findSession t.toTables k = some row := (h.sessions k).trans hrow
    have hstatements : loadSession t k =
        (do pure (some (← rowToRecord k row (findTicket t.toTables k)))) := by
      rw [loadSession, hfind]
    have hstore : SessionStore.loadSession db k =
        (do pure (some (← rowToRecord k row (db.tickets k)))) := by
      rw [SessionStore.loadSession, hrow]
    rw [hstatements, hstore, h.tickets]

theorem getRecord_agrees (h : Holds t.toTables db) (k : Pubkey) :
    getRecord t k = SessionStore.getRecord db k := by
  rw [getRecord, loadSession_agrees h, SessionStore.getRecord]

theorem loadActiveSessions_agrees (h : Holds t.toTables db) :
    loadActiveSessions t = SessionStore.loadActiveSessions db := by
  rw [loadActiveSessions, SessionStore.loadActiveSessions, ← h.order, List.filter_map,
    List.mapM_map]
  have hrow : ∀ s ∈ t.sessions.rows, db.sessions s.sessionPubkey = some s.columns := by
    intro s hs
    rw [← h.sessions]
    exact findSession_row hs
  have hsame : t.sessions.rows.filter (fun s => !s.columns.settled) = t.sessions.rows.filter
      ((fun k => (db.sessions k).any fun row => !row.settled) ∘ SessionsRow.sessionPubkey) := by
    apply List.filter_congr
    intro s hs
    rw [Function.comp_apply, hrow s hs]
    rfl
  rw [hsame]
  apply mapM_congr
  intro s hs
  rw [Function.comp_apply, hrow s (List.mem_of_mem_filter hs), h.tickets]
  rfl

theorem loadEvidenceLeaves_agrees (h : Holds t.toTables db) (k : Pubkey) :
    loadEvidenceLeaves t.toTables k = SessionStore.loadEvidenceLeaves db k := by
  have hhashes := congrArg (List.map EvidenceColumns.entryHash) (h.evidence k)
  rw [List.map_map, List.map_map] at hhashes
  exact hhashes

theorem loadEvidenceChain_agrees (h : Holds t.toTables db) (k : Pubkey) :
    loadEvidenceChain t.toTables k = SessionStore.loadEvidenceChain db k := by
  have hread : ((selectEvidence t.toTables k).map EvidenceLogRow.columns).mapM readEntry =
      ((db.evidence k).map columnsOf).mapM readEntry := by rw [h.evidence]
  rw [List.mapM_map, List.mapM_map] at hread
  exact hread

/-- A call through the statements answers and leaves what the call of the store does. -/
theorem call_agrees (h : Holds t.toTables db) (hi : Intact sha256 db) (c : StoreCall) :
    (call sha256 t c).1 = (StoreRuns.execute sha256 db c).1 ∧
      Holds (call sha256 t c).2.toTables (StoreRuns.execute sha256 db c).2 := by
  cases c with
  | openSession record =>
    obtain ⟨hreply, hh⟩ := (@openRecord_agrees t db record h).commit h
    exact ⟨congrArg StoreReply.done hreply, hh⟩
  | getSession session => exact ⟨congrArg StoreReply.found (getRecord_agrees h session), h⟩
  | admitClaim claim signature now =>
    obtain ⟨hreply, hh⟩ := (@admitClaim_agrees sha256 t db claim signature now h hi).commit h
    exact ⟨congrArg StoreReply.decided hreply, hh⟩
  | markSettled session =>
    obtain ⟨t', hok, hh⟩ := @markSettled_agrees t db session h
    simp only [call, hok]
    exact ⟨rfl, hh⟩
  | markChainVerified session =>
    obtain ⟨hreply, hh⟩ := (@markChainVerified_agrees t db session h).commit h
    exact ⟨congrArg StoreReply.done hreply, hh⟩
  | restart =>
    simp only [call, StoreRuns.execute, loadActiveSessions_agrees h]
    exact ⟨trivial, h⟩

end Calls

/-! ### Runs -/

/-- The gateway alone: one call of the store after another, each as the statements it sends, in
a transaction where the source has one. -/
def CallStep (sha256 : List UInt8 → Hash) (t : Schema) (c : StoreCall) (t' : Schema) : Prop :=
  t' = (call sha256 t c).2

/-- The tables restate the store: what it holds, what it answers to the next call, and the
leaves and chain it loads for each session. -/
structure Restates (sha256 : List UInt8 → Hash) (t : Schema) (db : Database) : Prop where
  holds : Holds t.toTables db
  replies : ∀ c, (call sha256 t c).1 = (StoreRuns.execute sha256 db c).1
  leaves : ∀ k, loadEvidenceLeaves t.toTables k = SessionStore.loadEvidenceLeaves db k
  chain : ∀ k, loadEvidenceChain t.toTables k = SessionStore.loadEvidenceChain db k

section Refinement
variable {sha256 : List UInt8 → Hash} {t : Schema} {h : History Schema StoreCall}

theorem holds_run (hr : Run (CallStep sha256) Schema.empty h t) : ∃ h' db,
    Run (StoreStep sha256) Database.empty h' db ∧
      h'.map Transition.label = h.map Transition.label ∧ Holds t.toTables db := by
  induction hr with
  | start => exact ⟨[], Database.empty, .start, rfl, holds_empty⟩
  | @step h t t' c hr hs ih =>
    obtain ⟨h', db, hrun, hlabels, hh⟩ := ih
    have hreached : Reached sha256 db := ⟨Database.empty, h', rfl, hrun⟩
    have hagrees := (call_agrees hh hreached.intact c).2
    rw [← hs] at hagrees
    refine ⟨_, _, hrun.step rfl, ?_, hagrees⟩
    rw [List.map_cons, List.map_cons, hlabels]

/-- The schema refuses no more than the store does: in the tables that any sequence of calls
leaves, every call is answered as by the store after the same calls, errors included. -/
theorem statements_refine_store (hr : Run (CallStep sha256) Schema.empty h t) : ∃ h' db,
    Run (StoreStep sha256) Database.empty h' db ∧
      h'.map Transition.label = h.map Transition.label ∧ Restates sha256 t db := by
  obtain ⟨h', db, hrun, hlabels, hh⟩ := holds_run hr
  have hreached : Reached sha256 db := ⟨Database.empty, h', rfl, hrun⟩
  exact ⟨h', db, hrun, hlabels, hh, fun c => (call_agrees hh hreached.intact c).1,
    loadEvidenceLeaves_agrees hh, loadEvidenceChain_agrees hh⟩

end Refinement

namespace Till
export EvidenceRuns.Till (record attempt calls)

/-- The calls from the newest to the first. -/
def play (sha256 : List UInt8 → Hash) : List StoreCall → History Schema StoreCall × Schema
  | [] => ([], Schema.empty)
  | c::calls =>
    let r := play sha256 calls
    let t := (call sha256 r.2 c).2
    (⟨r.2, c, t⟩ :: r.1, t)

theorem play_run (sha256 : List UInt8 → Hash) (calls : List StoreCall) :
    Run (CallStep sha256) Schema.empty (play sha256 calls).1 (play sha256 calls).2 := by
  induction calls with
  | nil => exact .start
  | cons c calls ih => exact ih.step rfl

end Till

/-- A claim, its replay, a second claim, the settlement and a late claim. -/
theorem statements_refine_store_till :
    (loadEvidenceLeaves (Till.play Ledger.sha256 Till.calls).2.toTables Ledger.session).length = 3 ∧
      ∃ h' db, Run (StoreStep Ledger.sha256) Database.empty h' db ∧
        h'.map Transition.label =
          (Till.play Ledger.sha256 Till.calls).1.map Transition.label ∧
        Restates Ledger.sha256 (Till.play Ledger.sha256 Till.calls).2 db := by
  refine ⟨?_, statements_refine_store (Till.play_run Ledger.sha256 Till.calls)⟩
  decide +kernel

/-- Who writes to the tables: the gateway, or anybody. -/
inductive Writer where
  | store (c : StoreCall)
  | transaction (statements : List Statement)

def write (sha256 : List UInt8 → Hash) (t : Schema) : Writer → Schema
  | .store c => (call sha256 t c).2
  | .transaction statements => transact t statements

def WriteStep (sha256 : List UInt8 → Hash) (t : Schema) (w : Writer) (t' : Schema) : Prop :=
  t' = write sha256 t w

section Keeping
variable {sha256 : List UInt8 → Hash} {t t' : Schema} {k : Pubkey}

theorem query_keeps {s : Statement} {n : ℕ} (h : query t s = .ok (t', n)) :
    t.evidenceLog.rows <+: t'.evidenceLog.rows :=
  execute_keeps (mapError_eq_ok.mp h)

theorem commit_keeps {α : Type} {x : Except StoreError (Schema × α)}
    (h : ∀ t' a, x = .ok (t', a) → t.evidenceLog.rows <+: t'.evidenceLog.rows) :
    t.evidenceLog.rows <+: (commit t x).2.evidenceLog.rows := by
  rcases x with e | ⟨t', a⟩
  · exact List.prefix_refl _
  · exact h t' a rfl

theorem appendEvidence_keeps {claim : Claim} {d : Decision} {signature : Signature}
    (h : appendEvidence sha256 t claim d signature = .ok t') :
    t.evidenceLog.rows <+: t'.evidenceLog.rows := by
  simp only [appendEvidence, bind_eq_ok, pure_eq_ok, Prod.exists] at h
  obtain ⟨_, _, -, _, -, _, _, hq, rfl⟩ := h
  exact query_keeps hq

theorem admitClaim_keeps {claim : Claim} {signature : Signature} {now : Int64}
    {outcome : Except ClaimRejection ClaimAccepted}
    (h : admitClaim sha256 t claim signature now = .ok (t', outcome)) :
    t.evidenceLog.rows <+: t'.evidenceLog.rows := by
  simp only [admitClaim, mapError_eq_ok, upsertClaimHighWaterMark, bind_eq_ok] at h
  obtain ⟨row, -, record, -, t₁, hrecord, h⟩ := h
  have hfirst : t.evidenceLog.rows <+: t₁.evidenceLog.rows := by
    unfold recordDecision at hrecord
    split at hrecord
    · exact appendEvidence_keeps hrecord
    · cases hrecord
      exact List.prefix_refl _
  split at h
  · cases h
    exact hfirst
  · simp only [bind_eq_ok, Prod.exists, writeTicket] at h
    obtain ⟨_, -, _, -, t₂, n, ⟨_, -, hq⟩, h⟩ := h
    split_ifs at h
    · cases h
      exact hfirst.trans (query_keeps hq)
    · cases h
      exact List.prefix_refl _

theorem commit_unit_keeps {x : Except StoreError Schema}
    (h : ∀ t', x = .ok t' → t.evidenceLog.rows <+: t'.evidenceLog.rows) :
    t.evidenceLog.rows <+: (commit t (x.map fun t' => (t', ()))).2.evidenceLog.rows := by
  rcases x with e | t'
  · exact List.prefix_refl _
  · exact h t' rfl

theorem call_keeps (c : StoreCall) :
    t.evidenceLog.rows <+: (call sha256 t c).2.evidenceLog.rows := by
  cases c with
  | openSession record =>
    refine commit_unit_keeps fun t' h => ?_
    simp only [openRecord, saveSession, bind_eq_ok, mapError_eq_ok, pure_eq_ok, Prod.exists] at h
    obtain ⟨_, _, ⟨_, -, _, -, _, _, hq, hpair⟩, _, -, rfl⟩ := h
    cases hpair
    exact query_keeps hq
  | getSession session => exact List.prefix_refl _
  | admitClaim claim signature now => exact commit_keeps fun _ _ h => admitClaim_keeps h
  | markSettled session =>
    refine commit_unit_keeps fun t' h => ?_
    rw [markSettled, mapError_eq_ok, markSessionSettled] at h
    rcases hq : query t (.sessions
      (.update (fun s => s.sessionPubkey = session && !s.columns.settled) settle)) with e | ⟨u, n⟩
    · rw [hq] at h
      cases h
    · rw [hq] at h
      cases h
      exact query_keeps hq
  | markChainVerified session =>
    refine commit_unit_keeps fun t' h => ?_
    simp only [markChainVerified, bind_eq_ok, mapError_eq_ok, pure_eq_ok, Prod.exists] at h
    obtain ⟨_, _, hq, _, -, rfl⟩ := h
    exact query_keeps hq
  | restart => exact List.prefix_refl _

theorem write_keeps (w : Writer) : t.evidenceLog.rows <+: (write sha256 t w).evidenceLog.rows := by
  cases w with
  | store c => exact call_keeps c
  | transaction statements => exact transact_keeps

theorem write_run_keeps {h : History Schema Writer} (hr : Run (WriteStep sha256) t h t') :
    t.evidenceLog.rows <+: t'.evidenceLog.rows := by
  induction hr with
  | start => exact List.prefix_refl _
  | step _ hs ih =>
    rw [hs]
    exact ih.trans (write_keeps _)

/-- No entry of the session has a negative amount or nonce. The columns have no `CHECK`. -/
def Readable (t : Tables) (k : Pubkey) : Prop :=
  ∀ e ∈ t.evidenceLog.rows, e.sessionPubkey = k →
    0 ≤ e.columns.cumulativeAmount.toInt ∧ 0 ≤ e.columns.nonce.toInt

/-- What becomes of the evidence of one session. The chain it had is loaded as the beginning of
the new one, unless an entry that does not read back was inserted. -/
structure Survives (t t' : Schema) (k : Pubkey) : Prop where
  rows : ∀ e ∈ t.evidenceLog.rows, e.sessionPubkey = k → e ∈ t'.evidenceLog.rows
  leaves : loadEvidenceLeaves t.toTables k <+: loadEvidenceLeaves t'.toTables k
  chain : ∃ entries, loadEvidenceChain t.toTables k = .ok entries ∧
    (Readable t'.toTables k ↔
      ∃ added, loadEvidenceChain t'.toTables k = .ok (entries ++ added))
  tracked : loadEvidenceLeaves t.toTables k ≠ [] → (findSession t'.toTables k).isSome

theorem mapM_prefix {α β : Type} {f : α → Except DbError β} {l l' : List α} {bs : List β}
    (hl : l <+: l') (h : l'.mapM f = .ok bs) : ∃ as, l.mapM f = .ok as ∧ as <+: bs := by
  obtain ⟨r, rfl⟩ := hl
  simp only [List.mapM_append, bind_eq_ok, pure_eq_ok] at h
  obtain ⟨as, has, cs, -, rfl⟩ := h
  exact ⟨as, has, List.prefix_append _ _⟩

theorem readEntry_isOk {e : EvidenceColumns} : (∃ entry, readEntry e = .ok entry) ↔
    0 ≤ e.cumulativeAmount.toInt ∧ 0 ≤ e.nonce.toInt := by
  constructor
  · rintro ⟨entry, h⟩
    simp only [readEntry, bind_eq_ok] at h
    obtain ⟨amount, hamount, nonce, hnonce, -⟩ := h
    have ha := toU64_eq_ok.mp hamount
    have hn := toU64_eq_ok.mp hnonce
    omega
  · rintro ⟨ha, hn⟩
    simp only [readEntry, toU64, if_pos ha, if_pos hn, ok_bind]
    exact ⟨_, rfl⟩

/-- The chain is loaded where every entry reads back. -/
theorem loadEvidenceChain_isOk {t : Tables} :
    (∃ entries, loadEvidenceChain t k = .ok entries) ↔ Readable t k := by
  have hmem : ∀ e, e ∈ selectEvidence t k ↔ e ∈ t.evidenceLog.rows ∧ e.sessionPubkey = k := by
    intro e
    rw [selectEvidence, mem_ordered, List.mem_filter, decide_eq_true_eq]
  constructor
  · rintro ⟨entries, h⟩ e he hk
    exact readEntry_isOk.mp (isOk_of_mapM h e ((hmem e).mpr ⟨he, hk⟩))
  · intro h
    refine mapM_isOk fun e he => readEntry_isOk.mpr ?_
    exact h e ((hmem e).mp he).1 ((hmem e).mp he).2

theorem findSession_of_evidence {e : EvidenceLogRow} (he : e ∈ t.evidenceLog.rows)
    (hk : e.sessionPubkey = k) : (findSession t.toTables k).isSome := by
  obtain ⟨s, hs, hsk⟩ := t.referenced.2 e he
  rw [← hk, ← hsk, findSession_row hs]
  rfl

/-- Whatever transactions are executed on the gateway's tables and whatever the gateway does
meanwhile, the evidence that a session had stays in its places and the session stays: no
`UPDATE`, `DELETE`, `TRUNCATE`, cascade or upsert reaches it, no insertion gets before or
between it, and only one that does not read back keeps the chain from being loaded. -/
theorem evidence_survives {h₀ : History Schema StoreCall} {h : History Schema Writer}
    (h₀run : Run (CallStep sha256) Schema.empty h₀ t) (hr : Run (WriteStep sha256) t h t')
    (k : Pubkey) : Survives t t' k := by
  obtain ⟨h', db, hrun, -, hh⟩ := holds_run h₀run
  have hreached : Reached sha256 db := ⟨Database.empty, h', rfl, hrun⟩
  have hrows := write_run_keeps hr
  have hselect := selectEvidence_prefix (hh.numbered hreached.intact k) hrows
  obtain ⟨entries, hentries⟩ : ∃ entries, loadEvidenceChain t.toTables k = .ok entries :=
    ⟨_, (loadEvidenceChain_agrees hh k).trans (loadEvidenceChain_eq (hreached.intact k))⟩
  refine ⟨fun e he _ => hrows.subset he, hselect.map _, ⟨entries, hentries, ?_⟩, ?_⟩
  · constructor
    · intro hread
      obtain ⟨entries', hentries'⟩ := loadEvidenceChain_isOk.mpr hread
      obtain ⟨before, hbefore, hpre⟩ := mapM_prefix hselect hentries'
      obtain rfl : before = entries := Except.ok.inj (hbefore.symm.trans hentries)
      obtain ⟨added, rfl⟩ := hpre
      exact ⟨added, hentries'⟩
    · rintro ⟨added, hadded⟩
      exact loadEvidenceChain_isOk.mp ⟨_, hadded⟩
  intro hne
  rw [EvidenceTables.loadEvidenceLeaves, ne_eq, List.map_eq_nil_iff] at hne
  obtain ⟨e, he⟩ := List.exists_mem_of_ne_nil _ hne
  have hmem := List.mem_filter.mp (mem_ordered.mp he)
  exact findSession_of_evidence (hrows.subset hmem.1) (of_decide_eq_true hmem.2)

end Keeping

namespace Till

/-- Somebody deletes the sessions, changes every entry, empties the log, and adds an entry. -/
def tampering : List Writer :=
  [.transaction [.sessions (.delete fun _ => true)],
    .transaction [.evidenceLog (.update (fun _ => true) fun e =>
      ⟨e.sessionPubkey, { e.columns with entryHash := zeroHash }, e.checked⟩)],
    .transaction [.truncate [.sessions] true],
    .transaction [.evidenceLog (.insert ⟨Ledger.session,
      ⟨7, 0, 0, [], zeroHash, zeroHash, none⟩, by decide⟩)]]

def tampered (sha256 : List UInt8 → Hash) (t : Schema) :
    List Writer → History Schema Writer × Schema
  | [] => ([], t)
  | w::writers =>
    let r := tampered sha256 t writers
    (⟨r.2, w, write sha256 r.2 w⟩ :: r.1, write sha256 r.2 w)

theorem tampered_run (sha256 : List UInt8 → Hash) (t : Schema) (writers : List Writer) :
    Run (WriteStep sha256) t (tampered sha256 t writers).1 (tampered sha256 t writers).2 := by
  induction writers with
  | nil => exact .start
  | cons w writers ih => exact ih.step rfl

end Till

/-- Three entries are recorded, and one is added to them. -/
theorem evidence_survives_till :
    (loadEvidenceLeaves (Till.tampered Ledger.sha256 (Till.play Ledger.sha256 Till.calls).2
        Till.tampering).2.toTables Ledger.session).length = 4 ∧
      Survives (Till.play Ledger.sha256 Till.calls).2
        (Till.tampered Ledger.sha256 (Till.play Ledger.sha256 Till.calls).2 Till.tampering).2
        Ledger.session := by
  refine ⟨?_, evidence_survives (Till.play_run Ledger.sha256 Till.calls)
    (Till.tampered_run Ledger.sha256 _ Till.tampering) Ledger.session⟩
  decide +kernel

end AgentPay.StoreStatements
