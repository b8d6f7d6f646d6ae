import AgentPay.EvidenceRuns

/-!
# The Postgres store refines the in-memory store

`InMemorySessionStore` of `state.rs` is a map of records that is updated in
place. The tables rebuild the same record from two rows on every read, so a
restart of the gateway, which keeps nothing but the tables, is invisible. The
comparison runs both stores on one sequence of calls.

Every entry of the evidence log also draws an id from the sequence behind the
`BIGSERIAL` column `evidence_log.id`. Nothing reads the ids, so they are kept
beside the tables here and left out elsewhere; but the sequence ends, and the
in-memory store keeps no log. The two stores agree on calls in range as long as
there is an id for each decision to record. It is used up before the checked
`sequence_id` of any one session is. Otherwise the tables answer with an error and
stay as they are.
-/
namespace AgentPay.StoreRefinement
open SolanaRuntime EscrowState GatewayClaims EvidenceLog EvidenceBinding SessionStore StoreRuns
open EvidenceRuns
open Fallible Runs

/-- The map behind the lock. No method panics while it holds the lock, so the lock is never
poisoned and that error does not occur. -/
abbrev MemoryStore := Pubkey → Option SessionRecord

namespace MemoryStore

def new : MemoryStore := fun _ => none

def insert (m : MemoryStore) (record : SessionRecord) (session : Pubkey) : MemoryStore :=
  Function.update m session (some record)

def openRecord (m : MemoryStore) (record : SessionRecord) : Except StoreError MemoryStore :=
  match m record.session with
  | some _ => .error .alreadyOpen
  | none => .ok (m.insert record record.session)

def getRecord (m : MemoryStore) (session : Pubkey) : Except StoreError SessionRecord :=
  okOr (m session) .unknown

/-- The record after a claim was accepted. -/
def advance (record : SessionRecord) (claim : Claim) (signature : Signature)
    (accepted : ClaimAccepted) : SessionRecord :=
  { record with
    cumulativeAccepted := accepted.cumulativeAmount
    lastNonce := some accepted.nonce
    highestClaim := some ⟨claim, signature⟩ }

def admitClaim (m : MemoryStore) (claim : Claim) (signature : Signature) (now : Int64) :
    Except StoreError (MemoryStore × Except ClaimRejection ClaimAccepted) :=
  match m claim.session with
  | none => .error .unknown
  | some record =>
    match evaluateClaim record claim now with
    | .ok accepted =>
      .ok (m.insert (advance record claim signature accepted) claim.session, .ok accepted)
    | .error rejection => .ok (m, .error rejection)

def markSettled (m : MemoryStore) (session : Pubkey) : Except StoreError MemoryStore :=
  match m session with
  | none => .error .unknown
  | some record => .ok (m.insert { record with isSettled := true } session)

def markChainVerified (m : MemoryStore) (session : Pubkey) : Except StoreError MemoryStore :=
  match m session with
  | none => .error .unknown
  | some record => .ok (m.insert { record with chainVerified := true } session)

/-- The reference never loses its map, so a restart does nothing to it. -/
def execute (m : MemoryStore) : StoreCall → StoreReply × MemoryStore
  | .openSession record =>
    let (result, m') := commit m ((m.openRecord record).map fun m' => (m', ()))
    (.done result, m')
  | .getSession session => (.found (m.getRecord session), m)
  | .admitClaim claim signature now =>
    let (result, m') := commit m (m.admitClaim claim signature now)
    (.decided result, m')
  | .markSettled session =>
    let (result, m') := commit m ((m.markSettled session).map fun m' => (m', ()))
    (.done result, m')
  | .markChainVerified session =>
    let (result, m') := commit m ((m.markChainVerified session).map fun m' => (m', ()))
    (.done result, m')
  | .restart => (.done (.ok ()), m)

end MemoryStore

/-- The tables, and how many ids `evidence_log_id_seq` has given out. An id that was drawn
stays drawn when its transaction is dropped. -/
structure Postgres where
  tables : Database
  drawn : ℕ

/-- The ids of a `BIGSERIAL` go from 1 to the largest `BIGINT`. -/
def lastId : ℕ := 2 ^ 63 - 1

/-- The call comes to the `INSERT` of `append_evidence`. -/
def inserts (sha256 : List UInt8 → Hash) (db : Database) : StoreCall → Bool
  | .admitClaim claim signature now =>
    match db.sessions claim.session with
    | none => false
    | some row =>
      match lockedRecord db claim.session row with
      | .error _ => false
      | .ok record =>
        match decisionOf (evaluateClaim record claim now) with
        | none => false
        | some decision => (appendEvidence sha256 db claim decision signature).isOk
  | _ => false

namespace Postgres

def new : Postgres := ⟨Database.empty, 0⟩

/-- A call of the store. An `INSERT` that finds no id fails, and with it the transaction. -/
def execute (sha256 : List UInt8 → Hash) (s : Postgres) (call : StoreCall) :
    StoreReply × Postgres :=
  let (reply, tables) := StoreRuns.execute sha256 s.tables call
  if inserts sha256 s.tables call then
    if s.drawn < lastId then (reply, ⟨tables, s.drawn + 1⟩) else (.decided (.error .unavailable), s)
  else (reply, ⟨tables, s.drawn⟩)

end Postgres

/-- Both stores take the same call, with the same clock. A restart keeps nothing but the tables,
from which the sessions are read back; the map, which is the reference, is left as it is. -/
def PairStep (sha256 : List UInt8 → Hash) (s : Postgres × MemoryStore) (call : StoreCall)
    (s' : Postgres × MemoryStore) : Prop :=
  s' = ((s.1.execute sha256 call).2, (s.2.execute call).2)

/-- A record as `SessionRecord::new` builds it, checked on chain or not. -/
def Fresh (r : SessionRecord) : Prop :=
  r = { SessionRecord.new r.session r.agent r.provider r.mint r.depositedTotal r.expiresAt with
    chainVerified := r.chainVerified }

instance (r : SessionRecord) : Decidable (Fresh r) := inferInstanceAs (Decidable (_ = _))

/-- The calls the gateway makes: new records are opened, and only a tracked session
is marked as settled. -/
def Admissible (m : MemoryStore) : StoreCall → Prop
  | .openSession record => Fresh record
  | .markSettled session => m session ≠ none
  | _ => True

instance (m : MemoryStore) : (call : StoreCall) → Decidable (Admissible m call)
  | .openSession record => inferInstanceAs (Decidable (Fresh record))
  | .markSettled session => inferInstanceAs (Decidable (m session ≠ none))
  | .getSession _ => inferInstanceAs (Decidable True)
  | .admitClaim _ _ _ => inferInstanceAs (Decidable True)
  | .markChainVerified _ => inferInstanceAs (Decidable True)
  | .restart => inferInstanceAs (Decidable True)

/-- Deposits between 1 and `i64::MAX`, nonces at most `i64::MAX`. -/
def InRange : StoreCall → Prop
  | .openSession record => 1 ≤ record.depositedTotal.toNat ∧ record.depositedTotal.toNat < 2 ^ 63
  | .admitClaim claim _ _ => claim.nonce.toNat < 2 ^ 63
  | _ => True

instance : (call : StoreCall) → Decidable (InRange call)
  | .openSession record => inferInstanceAs (Decidable (1 ≤ record.depositedTotal.toNat ∧ _))
  | .admitClaim claim _ _ => inferInstanceAs (Decidable (claim.nonce.toNat < 2 ^ 63))
  | .getSession _ => inferInstanceAs (Decidable True)
  | .markSettled _ => inferInstanceAs (Decidable True)
  | .markChainVerified _ => inferInstanceAs (Decidable True)
  | .restart => inferInstanceAs (Decidable True)

/-- The log of the session has a number left for the entry of this call. -/
def HasRoom (db : Database) : StoreCall → Prop
  | .admitClaim claim _ _ => (db.evidence claim.session).length < 2 ^ 63
  | _ => True

instance (db : Database) : (call : StoreCall) → Decidable (HasRoom db call)
  | .admitClaim claim _ _ =>
    inferInstanceAs (Decidable ((db.evidence claim.session).length < 2 ^ 63))
  | .openSession _ => inferInstanceAs (Decidable True)
  | .getSession _ => inferInstanceAs (Decidable True)
  | .markSettled _ => inferInstanceAs (Decidable True)
  | .markChainVerified _ => inferInstanceAs (Decidable True)
  | .restart => inferInstanceAs (Decidable True)

/-- There is an id for the entry of this call. -/
def HasId (sha256 : List UInt8 → Hash) (s : Postgres) (call : StoreCall) : Prop :=
  inserts sha256 s.tables call = true → s.drawn < lastId

instance (sha256 : List UInt8 → Hash) (s : Postgres) (call : StoreCall) :
    Decidable (HasId sha256 s call) :=
  inferInstanceAs (Decidable (inserts sha256 s.tables call = true → s.drawn < lastId))

def Failed : StoreReply → Prop
  | .done result => ∃ e, result = .error e
  | .found result => ∃ e, result = .error e
  | .decided result => ∃ e, result = .error e

/-- The map holds the records that the tables describe. -/
structure Related (sha256 : List UInt8 → Hash) (db : Database) (m : MemoryStore) : Prop where
  intact : Intact sha256 db
  records : ∀ k, m k = (db.sessions k).map fun row => recordOf k row (db.tickets k)

/-- The two stores answer alike and stay related. -/
def Agrees (sha256 : List UInt8 → Hash) (db : Database) (m : MemoryStore) (call : StoreCall) :
    Prop :=
  (execute sha256 db call).1 = (m.execute call).1 ∧
    Related sha256 (execute sha256 db call).2 (m.execute call).2

/-- The tables answer with an error and stay as they are. -/
def Refuses (sha256 : List UInt8 → Hash) (db : Database) (call : StoreCall) : Prop :=
  Failed (execute sha256 db call).1 ∧ (execute sha256 db call).2 = db

section Opening
variable {sha256 : List UInt8 → Hash} {db : Database} {m : MemoryStore} {record : SessionRecord}

def rowOf (r : SessionRecord) : SessionRow :=
  ⟨r.agent, r.provider, r.mint, r.depositedTotal.toInt64, r.expiresAt, false, r.chainVerified⟩

theorem openRecord_inRange (h : InRange (.openSession record)) :
    openRecord db record = match db.sessions record.session with
      | some _ => .error .alreadyOpen
      | none => .ok (Database.setSession { db with order := db.order ++ [record.session] }
          record.session (rowOf record)) := by
  have hi := UInt64.toInt_toInt64 h.2
  have hpos : (0 : Int64) < record.depositedTotal.toInt64 := by
    rw [Int64.lt_iff_toInt_lt, hi]
    exact Int.natCast_pos.mpr h.1
  simp only [openRecord, saveSession, toI64_of_lt h.2, ok_bind, require, if_pos hpos]
  rcases db.sessions record.session with _ | row
  · rfl
  · rfl

theorem openRecord_outOfRange (h : ¬InRange (.openSession record)) :
    openRecord db record = .error .unavailable := by
  by_cases hlt : record.depositedTotal.toNat < 2 ^ 63
  · have hi := UInt64.toInt_toInt64 hlt
    have hneg : ¬(0 : Int64) < record.depositedTotal.toInt64 := by
      rw [Int64.lt_iff_toInt_lt, hi]
      intro hpos
      exact h ⟨Int.natCast_pos.mp hpos, hlt⟩
    simp only [openRecord, saveSession, toI64_of_lt hlt, ok_bind, require, if_neg hneg, error_bind]
    rfl
  · simp only [openRecord, saveSession, toI64, if_neg hlt, error_bind]
    rfl

/-- Reading a fresh row back gives the record that was saved. -/
theorem recordOf_rowOf (hf : Fresh record) (h : InRange (.openSession record)) :
    recordOf record.session (rowOf record) none = record := by
  have hi := UInt64.toInt_toInt64 h.2
  have hu := Int64.toNat_toUInt64 (show 0 ≤ record.depositedTotal.toInt64.toInt by omega)
  have hback : record.depositedTotal.toInt64.toUInt64 = record.depositedTotal := by
    rw [← UInt64.toNat_inj]
    omega
  rw [Fresh] at hf
  rw [recordOf, rowOf, hback]
  exact hf.symm

theorem Related.insert (h : Related sha256 db m) {db' : Database} {session : Pubkey}
    {row : SessionRow} (hi : Intact sha256 db')
    (hs : ∀ k, db'.sessions k = if k = session then some row else db.sessions k)
    (ht : ∀ k, k ≠ session → db'.tickets k = db.tickets k) :
    Related sha256 db' (m.insert (recordOf session row (db'.tickets session)) session) := by
  refine ⟨hi, ?_⟩
  intro k
  rw [MemoryStore.insert, Function.update_apply, hs]
  split_ifs with hk
  · subst hk
    rfl
  · rw [h.records k, ht k hk]

theorem simulate_open (h : Related sha256 db m) (hf : Fresh record) :
    Agrees sha256 db m (.openSession record) ∨
      Refuses sha256 db (.openSession record) ∧ ¬InRange (.openSession record) := by
  by_cases hr : InRange (.openSession record)
  · left
    have hm := h.records record.session
    rcases hs : db.sessions record.session with _ | row
    · rw [hs, Option.map_none] at hm
      have ho := @openRecord_inRange db record hr
      rw [hs] at ho
      have hdb : execute sha256 db (.openSession record) = (.done (.ok ()),
          Database.setSession { db with order := db.order ++ [record.session] }
            record.session (rowOf record)) := by
        simp only [execute, ho]
        rfl
      have hmem : m.execute (.openSession record) =
          (.done (.ok ()), m.insert record record.session) := by
        simp only [MemoryStore.execute, MemoryStore.openRecord, hm]
        rfl
      rw [Agrees, hdb, hmem]
      refine ⟨rfl, ?_⟩
      have hnone := ((h.intact record.session).untracked hs).1
      have hrel := h.insert (h.intact.openRecord ho) (fun _ => setSession_sessions) fun _ _ => rfl
      rw [setSession_tickets, hnone, recordOf_rowOf hf hr] at hrel
      exact hrel
    · rw [hs, Option.map_some] at hm
      have ho := @openRecord_inRange db record hr
      rw [hs] at ho
      have hdb : execute sha256 db (.openSession record) =
          (.done (.error .alreadyOpen), db) := by
        simp only [execute, ho]
        rfl
      have hmem : m.execute (.openSession record) = (.done (.error .alreadyOpen), m) := by
        simp only [MemoryStore.execute, MemoryStore.openRecord, hm]
        rfl
      rw [Agrees, hdb, hmem]
      exact ⟨rfl, h⟩
  · right
    refine ⟨?_, hr⟩
    have hdb : execute sha256 db (.openSession record) = (.done (.error .unavailable), db) := by
      simp only [execute, openRecord_outOfRange hr]
      rfl
    rw [Refuses, hdb]
    exact ⟨⟨_, rfl⟩, rfl⟩

end Opening

section Calls
variable {sha256 : List UInt8 → Hash} {db : Database} {m : MemoryStore} {session : Pubkey}
variable {claim : Claim} {signature : Signature} {now : Int64}

theorem Related.getRecord_eq (h : Related sha256 db m) (k : Pubkey) :
    getRecord db k = m.getRecord k := by
  have hm := h.records k
  rcases hs : db.sessions k with _ | row
  · rw [hs, Option.map_none] at hm
    rw [MemoryStore.getRecord, hm]
    simp only [getRecord, loadSession, hs]
    rfl
  · rw [hs, Option.map_some] at hm
    rw [MemoryStore.getRecord, hm, StoreRuns.getRecord_eq h.intact hs]
    rfl

theorem Related.loadActiveSessions_isOk (h : Related sha256 db m) :
    ∃ records, loadActiveSessions db = .ok records := by
  apply mapM_isOk
  intro k hk
  rcases hs : db.sessions k with _ | row
  · rw [List.mem_filter, hs] at hk
    exact absurd hk.2 Bool.false_ne_true
  · exact ⟨_, rowToRecord_eq (h.intact.tracked hs)⟩

/-- An accepted claim is read back as the map keeps it. -/
theorem recordOf_ticketOf {row : SessionRow} {ticket : Option TicketRow} {log : List EvidenceRow}
    {acc : ClaimAccepted} (hc : Consistent sha256 claim.session (some row) ticket log)
    (hacc : Accepted (recordOf claim.session row ticket) claim now acc)
    (hnonce : claim.nonce.toNat < 2 ^ 63) :
    recordOf claim.session row (some (ticketOf claim signature)) =
      MemoryStore.advance (recordOf claim.session row ticket) claim signature acc := by
  have back : ∀ v : UInt64, v.toNat < 2 ^ 63 → v.toInt64.toUInt64 = v := by
    intro v hv
    have hi := UInt64.toInt_toInt64 hv
    have hu := Int64.toNat_toUInt64 (show 0 ≤ v.toInt64.toInt by omega)
    rw [← UInt64.toNat_inj]
    omega
  have hcum := back _ (accepted_within hc hacc).2
  have hn := back _ hnonce
  rw [hacc.result]
  simp only [recordOf, MemoryStore.advance, ticketOf, ticketClaim, Option.map_some,
    Option.getD_some, hcum, hn]

theorem pushed_sessions {row : SessionRow} {e : EvidenceRow} {t : TicketRow}
    (hs : db.sessions session = some row) (k : Pubkey) :
    ((db.pushEvidence session e).setTicket session t).sessions k =
      if k = session then some row else db.sessions k := by
  rw [setTicket_sessions, pushEvidence_sessions]
  split_ifs with hk
  · rw [hk, hs]
  · rfl

theorem setTicket_tickets_of_ne {e : EvidenceRow} {t : TicketRow} {k : Pubkey} (hk : k ≠ session) :
    ((db.pushEvidence session e).setTicket session t).tickets k = db.tickets k := by
  rw [setTicket_tickets, if_neg hk]
  rfl

theorem simulate_admit (h : Related sha256 db m) :
    Agrees sha256 db m (.admitClaim claim signature now) ∨
      Refuses sha256 db (.admitClaim claim signature now) ∧
        ¬(InRange (.admitClaim claim signature now) ∧
          HasRoom db (.admitClaim claim signature now)) := by
  have hm := h.records claim.session
  rcases hs : db.sessions claim.session with _ | row
  · left
    rw [hs, Option.map_none] at hm
    simp only [Agrees, execute, MemoryStore.execute, MemoryStore.admitClaim,
      admitClaim_untracked hs, hm, commit, true_and]
    exact h
  · rw [hs, Option.map_some] at hm
    have hc := h.intact.tracked hs
    have hcases := @admit_cases sha256 db claim signature now row hs hc
    generalize hx : SessionStore.admitClaim sha256 db claim signature now = x at hcases
    cases hcases with
    | settled _ he =>
      left
      simp only [Agrees, execute, MemoryStore.execute, MemoryStore.admitClaim, hx, hm, he, commit,
        true_and]
      exact h
    | refused hopen he hd hroom =>
      left
      rcases decisionOf_refused hopen he with ⟨d', hd', hne⟩
      rw [hd, Option.some.injEq] at hd'
      subst hd'
      simp only [Agrees, execute, MemoryStore.execute, MemoryStore.admitClaim, hx, hm, he, commit,
        true_and]
      exact ⟨h.intact.push_refused hs hne hroom, h.records⟩
    | accepted he hroom hnonce =>
      left
      have hacc := evaluateClaim_eq_ok.mp he
      have hback := @recordOf_ticketOf sha256 claim signature now row _ _ _ hc hacc hnonce
      simp only [Agrees, execute, MemoryStore.execute, MemoryStore.admitClaim, hx, hm, he, commit,
        true_and]
      have hpushed := @Intact.push_allowed sha256 db claim signature now h.intact row _ hs hacc
        hroom hnonce
      have hrel := h.insert hpushed (pushed_sessions hs) fun k hk => setTicket_tickets_of_ne hk
      rw [setTicket_tickets, if_pos rfl, hback] at hrel
      exact hrel
    | full _ hfull =>
      right
      refine ⟨?_, fun hin => absurd hin.2 (Nat.not_lt.mpr hfull)⟩
      simp only [Refuses, execute, hx, commit]
      exact ⟨⟨_, rfl⟩, trivial⟩
    | nonceTooLarge _ hlarge =>
      right
      refine ⟨?_, fun hin => absurd hin.1 (Nat.not_lt.mpr hlarge)⟩
      simp only [Refuses, execute, hx, commit]
      exact ⟨⟨_, rfl⟩, trivial⟩

/-- Setting a flag of the row sets that flag of the record. -/
theorem Related.setSession (h : Related sha256 db m) {row row' : SessionRow}
    (hs : db.sessions session = some row) (hd : row'.depositedTotal = row.depositedTotal) :
    Related sha256 (db.setSession session row')
      (m.insert (recordOf session row' (db.tickets session)) session) :=
  h.insert (h.intact.setSession hs hd) (fun _ => setSession_sessions) fun _ _ => rfl

theorem insert_self {record : SessionRecord} (h : m session = some record) :
    m.insert record session = m := by
  rw [MemoryStore.insert, ← h, Function.update_eq_self]

theorem simulate_settle (h : Related sha256 db m) (ht : m session ≠ none) :
    Agrees sha256 db m (.markSettled session) := by
  have hm := h.records session
  rcases hs : db.sessions session with _ | row
  · rw [hs, Option.map_none] at hm
    exact absurd hm ht
  · rw [hs, Option.map_some] at hm
    simp only [Agrees, execute, MemoryStore.execute, MemoryStore.markSettled, hm, markSettled,
      markSessionSettled, hs, Except.map, commit, true_and]
    split_ifs with hset
    · have hsame : { recordOf session row (db.tickets session) with isSettled := true } =
          recordOf session row (db.tickets session) := by
        rw [recordOf, hset]
      rw [hsame, insert_self hm]
      exact h
    · exact h.setSession hs rfl

theorem simulate_verify (h : Related sha256 db m) :
    Agrees sha256 db m (.markChainVerified session) := by
  have hm := h.records session
  rcases hs : db.sessions session with _ | row
  · rw [hs, Option.map_none] at hm
    simp only [Agrees, execute, MemoryStore.execute, MemoryStore.markChainVerified, hm,
      markChainVerified, hs, Except.map, commit, true_and]
    exact h
  · rw [hs, Option.map_some] at hm
    simp only [Agrees, execute, MemoryStore.execute, MemoryStore.markChainVerified, hm,
      markChainVerified, hs, commit]
    exact ⟨rfl, h.setSession hs rfl⟩

/-- Every call the gateway makes is answered alike, or refused by the tables with
an error, which happens only out of range or when the log is full. -/
theorem simulate (h : Related sha256 db m) {call : StoreCall} (ha : Admissible m call) :
    Agrees sha256 db m call ∨
      Refuses sha256 db call ∧ ¬(InRange call ∧ HasRoom db call) := by
  cases call with
  | openSession record =>
    rcases simulate_open h ha with hag | hre
    · exact .inl hag
    · exact .inr ⟨hre.1, fun hin => hre.2 hin.1⟩
  | getSession k =>
    left
    refine ⟨?_, h⟩
    simp only [execute, MemoryStore.execute, h.getRecord_eq k]
  | admitClaim claim signature now => exact simulate_admit h
  | markSettled k => exact .inl (simulate_settle h ha)
  | markChainVerified k => exact .inl (simulate_verify h)
  | restart =>
    left
    rcases h.loadActiveSessions_isOk with ⟨records, hl⟩
    refine ⟨?_, h⟩
    simp only [execute, MemoryStore.execute, hl]
    rfl

end Calls

theorem related_empty {sha256 : List UInt8 → Hash} :
    Related sha256 Database.empty MemoryStore.new :=
  ⟨intact_empty, fun _ => rfl⟩

section Ids
variable {sha256 : List UInt8 → Hash} {db : Database} {s : Postgres} {m : MemoryStore}
variable {claim : Claim} {signature : Signature} {now : Int64}

/-- A claim on an open session is recorded, whatever is decided on it. -/
theorem inserts_of_open (hi : Intact sha256 db) {row : SessionRow}
    (hrow : db.sessions claim.session = some row) (hopen : row.settled = false)
    (hroom : (db.evidence claim.session).length < 2 ^ 63) :
    inserts sha256 db (.admitClaim claim signature now) = true := by
  have hc := hi.tracked hrow
  have hlocked : ∀ record, evaluateClaim { record with highestClaim := none } claim now =
      evaluateClaim record claim now := fun _ => rfl
  obtain ⟨d, hd⟩ := @decisionOf_open claim now
    (recordOf claim.session row (db.tickets claim.session)) hopen
  simp only [inserts, hrow, lockedRecord_eq hc, hlocked, hd, appendEvidence_eq hc.linked,
    if_pos hroom]
  rfl

/-- A call adds at most the entry it draws an id for. -/
theorem evidence_execute (hi : Intact sha256 db) (call : StoreCall) (k : Pubkey) :
    ((execute sha256 db call).2.evidence k).length ≤
      (db.evidence k).length + (inserts sha256 db call).toNat := by
  have hw := execute_wrote hi call
  revert hw
  generalize (execute sha256 db call).2 = db'
  intro hw
  cases hw with
  | unchanged => exact Nat.le_add_right _ _
  | opened | settled | verified => exact Nat.le_add_right _ _
  | refused hrow hopen hroom _ =>
    rw [inserts_of_open hi hrow hopen hroom, pushEvidence_evidence]
    split_ifs with hk
    · rw [hk, List.length_append]
      exact le_rfl
    · exact Nat.le_add_right _ _
  | admitted hrow hopen hroom _ _ =>
    rw [inserts_of_open hi hrow hopen hroom, setTicket_evidence, pushEvidence_evidence]
    split_ifs with hk
    · rw [hk, List.length_append]
      exact le_rfl
    · exact Nat.le_add_right _ _

/-- The map is that of the tables, and every entry of theirs has drawn an id. -/
structure Paired (sha256 : List UInt8 → Hash) (s : Postgres) (m : MemoryStore) : Prop where
  related : Related sha256 s.tables m
  issued : ∀ k, (s.tables.evidence k).length ≤ s.drawn
  last : s.drawn ≤ lastId

theorem paired_new : Paired sha256 Postgres.new MemoryStore.new :=
  ⟨related_empty, fun _ => le_rfl, Nat.zero_le _⟩

/-- The ids of all sessions run out before the numbers of one. -/
theorem Paired.hasRoom (h : Paired sha256 s m) (call : StoreCall) : HasRoom s.tables call := by
  cases call with
  | admitClaim claim signature now =>
    have hissued := h.issued claim.session
    have hlast := h.last
    unfold lastId at hlast
    rw [HasRoom]
    omega
  | _ => trivial

theorem execute_of_hasId {call : StoreCall} (h : HasId sha256 s call) :
    s.execute sha256 call = ((execute sha256 s.tables call).1,
      ⟨(execute sha256 s.tables call).2, s.drawn + (inserts sha256 s.tables call).toNat⟩) := by
  unfold Postgres.execute
  rcases hins : inserts sha256 s.tables call with _ | _
  · rfl
  · simp only [if_true, if_pos (h hins)]
    rfl

theorem execute_of_not_hasId {call : StoreCall} (h : ¬HasId sha256 s call) :
    s.execute sha256 call = (.decided (.error .unavailable), s) := by
  obtain ⟨hins, hdrawn⟩ := Classical.not_imp.mp h
  simp only [Postgres.execute, hins, if_true, if_neg hdrawn]

theorem Paired.execute (h : Paired sha256 s m) {call : StoreCall} (hid : HasId sha256 s call)
    (ha : Agrees sha256 s.tables m call) :
    (s.execute sha256 call).1 = (m.execute call).1 ∧
      Paired sha256 (s.execute sha256 call).2 (m.execute call).2 := by
  rw [execute_of_hasId hid]
  refine ⟨ha.1, ha.2, fun k => ?_, ?_⟩
  · exact (evidence_execute h.related.intact call k).trans (Nat.add_le_add_right (h.issued k) _)
  · change s.drawn + _ ≤ lastId
    rcases hins : inserts sha256 s.tables call with _ | _
    · exact h.last
    · exact hid hins

/-- Every call the gateway makes is answered alike, or refused by the tables with an error
that changes nothing in them; the latter only out of range or without an id. -/
theorem Paired.simulate (h : Paired sha256 s m) {call : StoreCall} (ha : Admissible m call) :
    ((s.execute sha256 call).1 = (m.execute call).1 ∧
      Paired sha256 (s.execute sha256 call).2 (m.execute call).2) ∨
    (Failed (s.execute sha256 call).1 ∧ (s.execute sha256 call).2.tables = s.tables) ∧
      ¬(InRange call ∧ HasId sha256 s call) := by
  by_cases hid : HasId sha256 s call
  · rcases StoreRefinement.simulate h.related ha with hag | ⟨⟨hfailed, hsame⟩, hout⟩
    · exact .inl (h.execute hid hag)
    · right
      refine ⟨?_, fun hin => hout ⟨hin.1, h.hasRoom call⟩⟩
      rw [execute_of_hasId hid]
      exact ⟨hfailed, hsame⟩
  · right
    refine ⟨?_, fun hin => hid hin.2⟩
    rw [execute_of_not_hasId hid]
    exact ⟨⟨_, rfl⟩, rfl⟩

end Ids

/-- A call in range, made while there is an id for its entry. -/
def Served (sha256 : List UInt8 → Hash) (s : Postgres × MemoryStore) (call : StoreCall) : Prop :=
  Admissible s.2 call ∧ InRange call ∧ HasId sha256 s.1 call

instance (sha256 : List UInt8 → Hash) (s : Postgres × MemoryStore) (call : StoreCall) :
    Decidable (Served sha256 s call) :=
  inferInstanceAs (Decidable (Admissible s.2 call ∧ InRange call ∧ HasId sha256 s.1 call))

theorem paired_step {sha256 : List UInt8 → Hash} {s s' : Postgres × MemoryStore}
    {call : StoreCall} (h : Paired sha256 s.1 s.2) (hc : Served sha256 s call)
    (hs : PairStep sha256 s call s') :
    (s.1.execute sha256 call).1 = (s.2.execute call).1 ∧ Paired sha256 s'.1 s'.2 := by
  rcases h.simulate hc.1 with hag | hre
  · rw [hs]
    exact hag
  · exact absurd hc.2 hre.2

/-- Over every sequence of calls in range, restarts included, the two stores give
the same replies and hold equal records, as long as each decision finds an id.
After such a sequence any further call is answered alike or refused with an error
that changes nothing. -/
theorem database_refines_memory {sha256 : List UInt8 → Hash}
    {h : History (Postgres × MemoryStore) StoreCall} {s : Postgres} {m : MemoryStore}
    (hr : Run (PairStep sha256) (Postgres.new, MemoryStore.new) h (s, m))
    (hc : ∀ t ∈ h, Served sha256 t.before t.label) :
    (∀ t ∈ h, (t.before.1.execute sha256 t.label).1 = (t.before.2.execute t.label).1) ∧
      (∀ k, getRecord s.tables k = m.getRecord k) ∧
      ∀ call, Admissible m call →
        ((s.execute sha256 call).1 = (m.execute call).1 ∧
          ∀ k, getRecord (s.execute sha256 call).2.tables k = (m.execute call).2.getRecord k) ∨
        (Failed (s.execute sha256 call).1 ∧ (s.execute sha256 call).2.tables = s.tables) := by
  have hstep : ∀ (s : Postgres × MemoryStore) call s', Paired sha256 s.1 s.2 →
      Served sha256 s call → PairStep sha256 s call s' → Paired sha256 s'.1 s'.2 :=
    fun s call s' hpaired hserved hs => (paired_step hpaired hserved hs).2
  have hpaired : Paired sha256 s m := hr.invariant
    (I := fun s => Paired sha256 s.1 s.2) hstep paired_new hc
  refine ⟨?_, hpaired.related.getRecord_eq, ?_⟩
  · intro t ht
    have hbefore := hr.invariant_before (I := fun s => Paired sha256 s.1 s.2) hstep
      paired_new hc t ht
    exact (paired_step hbefore.1 (hc t ht) hbefore.2).1
  · intro call ha
    rcases hpaired.simulate ha with hag | hre
    · exact .inl ⟨hag.1, hag.2.related.getRecord_eq⟩
    · exact .inr hre.1

/-! ### Concrete runs of the pair -/
namespace Pair

/-- The calls from the newest to the first, on both stores. -/
def play (sha256 : List UInt8 → Hash) :
    List StoreCall → History (Postgres × MemoryStore) StoreCall × Postgres × MemoryStore
  | [] => ([], Postgres.new, MemoryStore.new)
  | call::calls =>
    let r := play sha256 calls
    let s := ((r.2.1.execute sha256 call).2, (r.2.2.execute call).2)
    (⟨r.2, call, s⟩ :: r.1, s)

theorem play_run (sha256 : List UInt8 → Hash) (calls : List StoreCall) :
    Run (PairStep sha256) (Postgres.new, MemoryStore.new) (play sha256 calls).1
      (play sha256 calls).2 := by
  induction calls with
  | nil => exact .start
  | cons call calls ih => exact ih.step rfl

theorem label_mem_of_mem_play {sha256 : List UInt8 → Hash} {calls : List StoreCall}
    {t : Transition (Postgres × MemoryStore) StoreCall} (h : t ∈ (play sha256 calls).1) :
    t.label ∈ calls := by
  induction calls with
  | nil => cases h
  | cons call calls ih =>
    rcases List.mem_cons.mp h with rfl | h
    · exact List.mem_cons_self
    · exact List.mem_cons_of_mem _ (ih h)

/-- Two claims with a replay and a restart between them, the settlement and a
claim that comes too late. -/
def calls : List StoreCall :=
  [Till.attempt 300 3, .markSettled Ledger.session, Till.attempt 250 2, .restart,
    Till.attempt 100 1, Till.attempt 100 1, .openSession Till.record]

end Pair

theorem database_refines_memory_till :
    ((Pair.play Ledger.sha256 Pair.calls).2.2 Ledger.session).map
        SessionRecord.cumulativeAccepted = some 250 ∧
      (Pair.play Ledger.sha256 Pair.calls).2.1.drawn = 3 ∧
      (∀ t ∈ (Pair.play Ledger.sha256 Pair.calls).1,
        (t.before.1.execute Ledger.sha256 t.label).1 = (t.before.2.execute t.label).1) ∧
      ∀ k, getRecord (Pair.play Ledger.sha256 Pair.calls).2.1.tables k =
        (Pair.play Ledger.sha256 Pair.calls).2.2.getRecord k := by
  have hserved : ∀ t ∈ (Pair.play Ledger.sha256 Pair.calls).1,
      Served Ledger.sha256 t.before t.label := by
    decide +kernel
  have href := database_refines_memory (Pair.play_run Ledger.sha256 Pair.calls) hserved
  refine ⟨?_, ?_, href.1, href.2.1⟩
  · decide +kernel
  · decide +kernel

/-! ### A sequence without ids -/
namespace Crowd

/-- A claim for nothing, refused as not monotonic. -/
def claim : Claim := ⟨Ledger.session, 0, 0, 4000⟩

def attempt : StoreCall := .admitClaim claim Till.signature 2000

/-- The session is opened and `n` such claims are made. -/
def calls (n : ℕ) : List StoreCall := List.replicate n attempt ++ [.openSession Till.record]

/-- The stores after `n` refusals. -/
structure Crowded (n : ℕ) (s : Postgres × MemoryStore) : Prop where
  intact : Intact Ledger.sha256 s.1.tables
  session : s.1.tables.sessions Ledger.session = some (rowOf Till.record)
  ticket : s.1.tables.tickets Ledger.session = none
  length : (s.1.tables.evidence Ledger.session).length = n
  drawn : s.1.drawn = n
  record : s.2 Ledger.session = some Till.record

theorem refused : evaluateClaim (recordOf claim.session (rowOf Till.record) none) claim 2000 =
    .error .notMonotonic := by
  decide +kernel

/-- The next claim is refused again and recorded, where it finds an id. -/
theorem Crowded.next {n : ℕ} {s : Postgres × MemoryStore} (h : Crowded n s) (hn : n ≤ lastId) :
    inserts Ledger.sha256 s.1.tables attempt = true ∧
      ∃ e, admitClaim Ledger.sha256 s.1.tables claim Till.signature 2000 =
        .ok (s.1.tables.pushEvidence Ledger.session e, .error .notMonotonic) := by
  have hroom : (s.1.tables.evidence claim.session).length < 2 ^ 63 := by
    rw [show claim.session = Ledger.session from rfl, h.length]
    unfold lastId at hn
    omega
  refine ⟨inserts_of_open h.intact h.session rfl hroom, ?_⟩
  have hcases := @admit_cases Ledger.sha256 s.1.tables claim Till.signature 2000 _ h.session
    (h.intact.tracked h.session)
  have hticket : s.1.tables.tickets claim.session = none := h.ticket
  rw [hticket] at hcases
  generalize admitClaim Ledger.sha256 s.1.tables claim Till.signature 2000 = x at hcases
  cases hcases with
  | settled hs _ => cases hs
  | refused _ he _ _ =>
    rw [refused, Except.error.injEq] at he
    subst he
    exact ⟨_, rfl⟩
  | accepted he _ _ =>
    rw [refused] at he
    cases he
  | full _ hfull => exact absurd hroom (Nat.not_lt.mpr hfull)
  | nonceTooLarge he _ =>
    rw [refused] at he
    cases he

theorem Crowded.memory {n : ℕ} {s : Postgres × MemoryStore} (h : Crowded n s) :
    s.2.execute attempt = (.decided (.ok (.error .notMonotonic)), s.2) := by
  have hs : s.2 claim.session = some Till.record := h.record
  have hev : evaluateClaim Till.record claim 2000 = .error .notMonotonic := refused
  simp only [MemoryStore.execute, attempt, MemoryStore.admitClaim, hs, hev, commit]

theorem crowded_play {n : ℕ} (hn : n ≤ lastId) :
    Crowded n (Pair.play Ledger.sha256 (calls n)).2 := by
  induction n with
  | zero =>
    refine ⟨?_, rfl, rfl, rfl, rfl, rfl⟩
    exact intact_empty.execute (.openSession Till.record)
  | succ n ih =>
    have h := ih (Nat.le_of_succ_le hn)
    have hplay : (Pair.play Ledger.sha256 (calls (n + 1))).2 =
        (((Pair.play Ledger.sha256 (calls n)).2.1.execute Ledger.sha256 attempt).2,
          ((Pair.play Ledger.sha256 (calls n)).2.2.execute attempt).2) := rfl
    rw [hplay]
    generalize (Pair.play Ledger.sha256 (calls n)).2 = s at h
    obtain ⟨hins, e, heq⟩ := h.next (Nat.le_of_succ_le hn)
    have hid : HasId Ledger.sha256 s.1 attempt := fun _ => by
      rw [h.drawn]
      exact hn
    have hdb : (execute Ledger.sha256 s.1.tables attempt).2 =
        s.1.tables.pushEvidence Ledger.session e := by
      simp only [execute, attempt, heq, commit]
    have hint := h.intact.execute attempt
    rw [hdb] at hint
    rw [execute_of_hasId hid, hdb, hins, h.memory]
    refine ⟨hint, h.session, h.ticket, ?_, congrArg (· + 1) h.drawn, h.record⟩
    rw [pushEvidence_evidence, if_pos rfl, List.length_append, h.length]
    rfl

theorem calls_inRange {n : ℕ} {call : StoreCall} (h : call ∈ calls n) (m : MemoryStore) :
    Admissible m call ∧ InRange call := by
  rcases List.mem_append.mp h with h | h
  · rw [List.eq_of_mem_replicate h]
    exact ⟨trivial, by decide⟩
  · rw [List.mem_singleton.mp h]
    exact ⟨rfl, by decide⟩

/-- The number of refusals stays a variable here: nothing may evaluate the list of
calls. -/
theorem diverges {n : ℕ} (hn : n = lastId) :
    ((Pair.play Ledger.sha256 (calls n)).2.1.execute Ledger.sha256 attempt).1 =
        .decided (.error .unavailable) ∧
      ((Pair.play Ledger.sha256 (calls n)).2.2.execute attempt).1 =
        .decided (.ok (.error .notMonotonic)) := by
  have hcrowd := crowded_play hn.le
  generalize (Pair.play Ledger.sha256 (calls n)).2 = s at hcrowd
  have hnone : ¬HasId Ledger.sha256 s.1 attempt := by
    intro hid
    have hlt := hid (hcrowd.next hn.le).1
    rw [hcrowd.drawn, hn] at hlt
    exact lt_irrefl _ hlt
  rw [execute_of_not_hasId hnone, hcrowd.memory]
  exact ⟨rfl, rfl⟩

end Crowd

/-- After `2 ^ 63 - 1` refused claims, all of them in range, the tables have no id for one
more and fail where the map still answers. -/
theorem spent_ids_diverge :
    (∀ t ∈ (Pair.play Ledger.sha256 (Crowd.calls lastId)).1,
        Admissible t.before.2 t.label ∧ InRange t.label) ∧
      Run (PairStep Ledger.sha256) (Postgres.new, MemoryStore.new)
        (Pair.play Ledger.sha256 (Crowd.calls lastId)).1
        (Pair.play Ledger.sha256 (Crowd.calls lastId)).2 ∧
      Admissible (Pair.play Ledger.sha256 (Crowd.calls lastId)).2.2 Crowd.attempt ∧
      InRange Crowd.attempt ∧
      ((Pair.play Ledger.sha256 (Crowd.calls lastId)).2.1.execute Ledger.sha256
          Crowd.attempt).1 =
        .decided (.error .unavailable) ∧
      ((Pair.play Ledger.sha256 (Crowd.calls lastId)).2.2.execute Crowd.attempt).1 =
        .decided (.ok (.error .notMonotonic)) := by
  refine ⟨?_, Pair.play_run _ _, trivial, by decide, Crowd.diverges rfl⟩
  intro t ht
  exact Crowd.calls_inRange (Pair.label_mem_of_mem_play ht) t.before.2

end AgentPay.StoreRefinement
