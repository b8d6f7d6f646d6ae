import AgentPay.KeyedTable
import AgentPay.NumberedRows
import AgentPay.SessionStore

/-!
# The tables as the migrations declare them

What Postgres itself refuses for `sessions`, `claim_tickets` and `evidence_log`: keys,
checks, references that cascade, and the triggers that let rows into `evidence_log` and
none out. Any statement may be executed on the tables, whoever sends it. Rows of
`evidence_log` are only ever added, whatever is executed.

A statement changes one table, apart from its cascades. A transaction is a list of
statements that is committed or rolled back as a whole, and transactions come one after
another. Nobody drops or disables a trigger. Columns that the store does not read are left
out, as are the widths of the texts: these only refuse more. So does the sequence behind
`evidence_log.id`, which has no id left after `2 ^ 63 - 1` rows.
-/
namespace AgentPay.EvidenceTables
open SolanaRuntime EscrowState GatewayClaims SessionStore KeyedTable NumberedRows Fallible

/-! ### Rows and constraints -/

/-- A row of `sessions`, with its `CHECK`. -/
structure SessionsRow where
  sessionPubkey : Pubkey
  columns : SessionRow
  checked : 0 < columns.depositedTotal.toInt
deriving DecidableEq

structure TicketsRow where
  sessionPubkey : Pubkey
  columns : TicketRow
  checked : 0 < columns.cumulativeAmount.toInt ∧ 0 ≤ columns.nonce.toInt
deriving DecidableEq

/-- The columns of `evidence_log` apart from `id`, which nothing reads; the decision is any
text. -/
structure EvidenceColumns where
  sequenceId : Int64
  cumulativeAmount : Int64
  nonce : Int64
  decision : List UInt8
  prevHash : Hash
  entryHash : Hash
  signature : Option Signature
deriving DecidableEq

/-- A row of `evidence_log` with its check. Its `id` is left out: nothing reads it, but the
sequence that gives it ends, which is counted in `StoreRefinement`. -/
structure EvidenceLogRow where
  sessionPubkey : Pubkey
  columns : EvidenceColumns
  checked : 0 ≤ columns.sequenceId.toInt
deriving DecidableEq

def sameSession (a b : SessionsRow) : Bool := a.sessionPubkey = b.sessionPubkey

def sameTicket (a b : TicketsRow) : Bool := a.sessionPubkey = b.sessionPubkey

/-- `uq_session_sequence`. -/
def sameSequence (a b : EvidenceLogRow) : Bool :=
  a.sessionPubkey = b.sessionPubkey ∧ a.columns.sequenceId = b.columns.sequenceId

/-- The three tables with their keys. Columns that no statement of the store reads are left out,
and so are the widths of the texts. -/
structure Tables where
  sessions : Table sameSession
  claimTickets : Table sameTicket
  evidenceLog : Table sameSequence

/-- The foreign keys. None is deferred, so they hold after every statement and not only where a
transaction commits. -/
def Referenced (t : Tables) : Prop :=
  (∀ r ∈ t.claimTickets.rows, ∃ s ∈ t.sessions.rows, s.sessionPubkey = r.sessionPubkey) ∧
    ∀ r ∈ t.evidenceLog.rows, ∃ s ∈ t.sessions.rows, s.sessionPubkey = r.sessionPubkey

instance (t : Tables) : Decidable (Referenced t) := inferInstanceAs (Decidable (_ ∧ _))

/-- Tables as a transaction may leave them. -/
structure Schema extends Tables where
  referenced : Referenced toTables

def Schema.empty : Schema := ⟨⟨.empty, .empty, .empty⟩, nofun, nofun⟩

inductive SqlError where
  | uniqueViolation
  | foreignKeyViolation
  | restrictViolation
  | featureNotSupported
deriving DecidableEq

/-! ### Statements -/

/-- `INSERT`, `INSERT ... ON CONFLICT DO UPDATE SET ... WHERE`, `UPDATE ... WHERE` and
`DELETE ... WHERE`. -/
inductive Change (ρ : Type) where
  | insert (r : ρ)
  | upsert (r : ρ) (only : ρ → Bool) (f : ρ → ρ)
  | update (p : ρ → Bool) (f : ρ → ρ)
  | delete (p : ρ → Bool)

namespace Change
variable {ρ : Type} {clash : ρ → ρ → Bool}

/-- The rows it updates or deletes, for which row triggers fire. -/
def selects (clash : ρ → ρ → Bool) : Change ρ → ρ → Bool
  | .insert _ => fun _ => false
  | .upsert r only _ => fun a => clash a r && only a
  | .update p _ => p
  | .delete p => p

def inserted (t : Table clash) (r : ρ) : Except SqlError (Table clash × ℕ) := do
  let t' ← okOr (t.insert r) .uniqueViolation
  pure (t', 1)

def updated (t : Table clash) (p : ρ → Bool) (f : ρ → ρ) : Except SqlError (Table clash × ℕ) := do
  let t' ← okOr (t.update p f) .uniqueViolation
  pure (t', t.rows.countP p)

/-- The table it leaves and the number of rows it affected. -/
def run (t : Table clash) : Change ρ → Except SqlError (Table clash × ℕ)
  | .insert r => inserted t r
  | .upsert r only f =>
    if t.rows.any fun a => clash a r then updated t (fun a => clash a r && only a) f
    else inserted t r
  | .update p f => updated t p f
  | .delete p => .ok (t.delete p, t.rows.countP p)

def removes (t : Table clash) : Change ρ → List ρ
  | .delete p => t.rows.filter p
  | _ => []

end Change

inductive TableName where
  | sessions
  | claimTickets
  | evidenceLog
deriving DecidableEq

inductive Statement where
  | sessions (c : Change SessionsRow)
  | claimTickets (c : Change TicketsRow)
  | evidenceLog (c : Change EvidenceLogRow)
  | truncate (tables : List TableName) (cascade : Bool)

/-- The references are checked when a statement is done. -/
def Tables.commit (t : Tables) : Except SqlError Schema :=
  if h : Referenced t then .ok ⟨t, h⟩ else .error .foreignKeyViolation

/-- `TRUNCATE`, which takes tables that refer to another together with it. -/
def truncate (t : Schema) (tables : List TableName) (cascade : Bool) : Except SqlError Schema := do
  let all :=
    if cascade ∧ .sessions ∈ tables then [.sessions, .claimTickets, .evidenceLog] else tables
  require (.sessions ∈ all → .claimTickets ∈ all ∧ .evidenceLog ∈ all) SqlError.featureNotSupported
  require (.evidenceLog ∉ all) SqlError.restrictViolation
  Tables.commit
    { t.toTables with claimTickets := if .claimTickets ∈ all then .empty else t.claimTickets }

/-- One statement, with its cascades and triggers. -/
def execute (t : Schema) : Statement → Except SqlError (Schema × ℕ)
  | .sessions c => do
    let (sessions, n) ← c.run t.sessions
    let orphan (k : Pubkey) : Bool := (c.removes t.sessions).any fun s => s.sessionPubkey = k
    require (∀ e ∈ t.evidenceLog.rows, orphan e.sessionPubkey = false) SqlError.restrictViolation
    let t' ← Tables.commit
      ⟨sessions, t.claimTickets.delete fun r => orphan r.sessionPubkey, t.evidenceLog⟩
    pure (t', n)
  | .claimTickets c => do
    let (claimTickets, n) ← c.run t.claimTickets
    let t' ← Tables.commit { t.toTables with claimTickets := claimTickets }
    pure (t', n)
  | .evidenceLog c => do
    require (∀ e ∈ t.evidenceLog.rows, c.selects sameSequence e = false) SqlError.restrictViolation
    let (evidenceLog, n) ← c.run t.evidenceLog
    let t' ← Tables.commit { t.toTables with evidenceLog := evidenceLog }
    pure (t', n)
  | .truncate tables cascade => do
    let t' ← truncate t tables cascade
    pure (t', 0)

/-- A transaction of given statements: all of them, or none. -/
def transact (t : Schema) (statements : List Statement) : Schema :=
  match statements.foldlM (fun t s => (execute t s).map Prod.fst) t with
  | .ok t' => t'
  | .error _ => t

/-! ### Reading -/

def findSession (t : Tables) (session : Pubkey) : Option SessionRow :=
  (t.sessions.rows.find? fun s => s.sessionPubkey = session).map SessionsRow.columns

def findTicket (t : Tables) (session : Pubkey) : Option TicketRow :=
  (t.claimTickets.rows.find? fun r => r.sessionPubkey = session).map TicketsRow.columns

/-- The rows of one session `ORDER BY sequence_id`. -/
def selectEvidence (t : Tables) (session : Pubkey) : List EvidenceLogRow :=
  ordered (fun e => e.columns.sequenceId.toInt)
    (t.evidenceLog.rows.filter fun e => e.sessionPubkey = session)

def loadEvidenceLeaves (t : Tables) (session : Pubkey) : List Hash :=
  (selectEvidence t session).map fun e => e.columns.entryHash

/-! ### What is executed adds rows -/

section Keeping
variable {ρ : Type} {clash : ρ → ρ → Bool} {t t' : Table clash} {c : Change ρ} {n : ℕ}
variable {p : ρ → Bool} {f : ρ → ρ} {r : ρ}

theorem Change.inserted_rows (h : Change.inserted t r = .ok (t', n)) : t'.rows = t.rows ++ [r] := by
  simp only [Change.inserted, bind_eq_ok, okOr_eq_ok, pure_eq_ok, Prod.mk.injEq] at h
  obtain ⟨_, hi, rfl, -⟩ := h
  exact (Table.insert_eq_some.mp hi).2

theorem Change.updated_rows (h : Change.updated t p f = .ok (t', n)) :
    t'.rows = t.rows.map (Table.updated p f) := by
  simp only [Change.updated, bind_eq_ok, okOr_eq_ok, pure_eq_ok, Prod.mk.injEq] at h
  obtain ⟨_, hu, rfl, -⟩ := h
  exact Table.update_rows hu

theorem map_unselected (hp : ∀ a ∈ t.rows, p a = false) :
    t.rows.map (Table.updated p f) = t.rows := by
  conv_rhs => rw [← List.map_id t.rows]
  apply List.map_congr_left
  intro a ha
  simp [Table.updated, hp a ha]

/-- A change that selects no row leaves every row. -/
theorem Change.run_unselected (hc : ∀ a ∈ t.rows, c.selects clash a = false)
    (h : c.run t = .ok (t', n)) : t.rows <+: t'.rows := by
  cases c with
  | insert r =>
    rw [inserted_rows h]
    exact List.prefix_append _ _
  | upsert r only f =>
    have hnone : ∀ a ∈ t.rows, (clash a r && only a) = false := hc
    simp only [Change.run] at h
    split_ifs at h with hany
    · rw [updated_rows h, map_unselected hnone]
    · rw [inserted_rows h]
      exact List.prefix_append _ _
  | update p f =>
    have hnone : ∀ a ∈ t.rows, p a = false := hc
    rw [updated_rows h, map_unselected hnone]
  | delete p =>
    cases h
    have hnone : ∀ a ∈ t.rows, p a = false := hc
    have hall : (t.delete p).rows = t.rows :=
      List.filter_eq_self.mpr fun a ha => by simp [hnone a ha]
    rw [hall]

end Keeping

section Evidence
variable {t t' : Schema} {n : ℕ}

theorem commit_eq_ok {x : Tables} : x.commit = .ok t' ↔ t'.toTables = x := by
  rcases t' with ⟨t', h'⟩
  unfold Tables.commit
  split_ifs with h
  · simp [eq_comm]
  · simp only [false_iff]
    rintro rfl
    exact h h'

theorem execute_keeps {s : Statement} (h : execute t s = .ok (t', n)) :
    t.evidenceLog.rows <+: t'.evidenceLog.rows := by
  cases s with
  | sessions c =>
    simp only [execute, bind_eq_ok, commit_eq_ok, pure_eq_ok, Prod.mk.injEq, Prod.exists] at h
    obtain ⟨_, _, -, _, -, t', ht, rfl, -⟩ := h
    rw [ht]
  | claimTickets c =>
    simp only [execute, bind_eq_ok, commit_eq_ok, pure_eq_ok, Prod.mk.injEq, Prod.exists] at h
    obtain ⟨_, _, -, t', ht, rfl, -⟩ := h
    rw [ht]
  | evidenceLog c =>
    simp only [execute, bind_eq_ok, require_eq_ok, commit_eq_ok, pure_eq_ok, Prod.mk.injEq,
      Prod.exists] at h
    obtain ⟨_, hfires, _, _, hrun, t', ht, rfl, -⟩ := h
    rw [ht]
    exact Change.run_unselected hfires hrun
  | truncate tables cascade =>
    simp only [execute, truncate, bind_eq_ok, commit_eq_ok, pure_eq_ok, Prod.mk.injEq] at h
    obtain ⟨t', ⟨_, -, _, -, ht⟩, rfl, -⟩ := h
    rw [ht]

theorem foldlM_keeps {statements : List Statement}
    (h : statements.foldlM (fun t s => (execute t s).map Prod.fst) t = .ok t') :
    t.evidenceLog.rows <+: t'.evidenceLog.rows := by
  induction statements generalizing t with
  | nil =>
    cases h
    exact List.prefix_refl _
  | cons s statements ih =>
    rw [List.foldlM_cons, bind_eq_ok] at h
    obtain ⟨u, hu, h⟩ := h
    rcases he : execute t s with e | ⟨v, m⟩
    · rw [he] at hu
      cases hu
    · rw [he] at hu
      cases hu
      exact (execute_keeps he).trans (ih h)

theorem transact_keeps {statements : List Statement} :
    t.evidenceLog.rows <+: (transact t statements).evidenceLog.rows := by
  unfold transact
  split
  · exact foldlM_keeps ‹_›
  · exact List.prefix_refl _

end Evidence

section Selecting
variable {t t' : Tables} {k : Pubkey}

/-- The sequence numbers of one session are unique. -/
theorem sequence_nodup (t : Tables) (k : Pubkey) :
    ((t.evidenceLog.rows.filter fun e => e.sessionPubkey = k).map
      fun e => e.columns.sequenceId.toInt).Nodup := by
  rw [List.Nodup, List.pairwise_map, List.pairwise_filter]
  refine t.evidenceLog.unique.imp ?_
  intro a b hab ha hb heq
  simp only [decide_eq_true_eq] at ha hb
  have hseq : a.columns.sequenceId = b.columns.sequenceId := Int64.toInt_inj.mp heq
  simp [sameSequence, ha, hb, hseq] at hab

/-- Evidence that is numbered by its places keeps them however the table grows. -/
theorem selectEvidence_prefix
    (hn : Numbered (fun e : EvidenceLogRow => e.columns.sequenceId.toInt) (selectEvidence t k))
    (h : t.evidenceLog.rows <+: t'.evidenceLog.rows) :
    selectEvidence t k <+: selectEvidence t' k :=
  ordered_prefix hn (h.filter _) (sequence_nodup t' k) fun e _ => e.checked

end Selecting

/-! ### What is not refused -/

section Succeeding
variable {ρ : Type} {clash : ρ → ρ → Bool} {t t' : Table clash} {n : ℕ} {p : ρ → Bool} {f : ρ → ρ}
variable {r : ρ}

theorem Change.inserted_fresh (h : ∀ a ∈ t.rows, clash a r = false) :
    ∃ t', Change.inserted t r = .ok (t', 1) ∧ t'.rows = t.rows ++ [r] := by
  have hi : ∃ t', t.insert r = some t' := ⟨_, dif_pos h⟩
  obtain ⟨t', hi⟩ := hi
  exact ⟨t', by simp [Change.inserted, hi, okOr], (Table.insert_eq_some.mp hi).2⟩

theorem Change.upsert_fresh {only : ρ → Bool} (h : ∀ a ∈ t.rows, clash a r = false) :
    ∃ t', (Change.upsert r only f).run t = .ok (t', 1) ∧ t'.rows = t.rows ++ [r] := by
  have hnone : (t.rows.any fun a => clash a r) = false := by simpa using h
  simp only [Change.run, hnone, Bool.false_eq_true, if_false]
  exact Change.inserted_fresh h

theorem Change.updated_keeping {κ : Type} [DecidableEq κ] {key : ρ → κ}
    (hkey : ∀ a b, clash a b = decide (key a = key b)) (hf : ∀ a, p a = true → key (f a) = key a) :
    ∃ t', Change.updated t p f = .ok (t', t.rows.countP p) ∧
      t'.rows = t.rows.map (Table.updated p f) := by
  have hsame : ∀ a, key (Table.updated p f a) = key a := by
    intro a
    unfold Table.updated
    split_ifs with h
    · exact hf a h
    · rfl
  have hclash : ∀ a b, clash (Table.updated p f a) (Table.updated p f b) = clash a b := by
    intro a b
    rw [hkey, hkey, hsame, hsame]
  obtain ⟨t', ht⟩ := Table.update_isSome hclash
  exact ⟨t', by simp [Change.updated, ht, okOr], Table.update_rows ht⟩

/-- A row that keeps its key is found where the old one was. -/
theorem find?_updated {κ : Type} [DecidableEq κ] {key : ρ → κ} {l : List ρ}
    (hf : ∀ a, p a = true → key (f a) = key a) (k : κ) :
    ((l.map (Table.updated p f)).find? fun a => key a = k) =
      (l.find? fun a => key a = k).map (Table.updated p f) := by
  rw [List.find?_map]
  congr 2
  funext a
  simp only [Function.comp_apply, Table.updated]
  split_ifs with h
  · rw [hf a h]
  · rfl

/-- A test of the row with one key selects it or nothing. -/
theorem countP_key {κ : Type} [DecidableEq κ] {key : ρ → κ}
    (hkey : ∀ a b, clash a b = decide (key a = key b)) (q : ρ → Bool) (k : κ) :
    t.rows.countP (fun a => decide (key a = k) && q a) =
      if (t.rows.find? fun a => key a = k).any q then 1 else 0 := by
  have hcomm : (fun a => decide (key a = k) && q a) = fun a => q a && decide (key a = k) := by
    funext a
    exact Bool.and_comm _ _
  rw [hcomm, ← List.countP_filter]
  rcases hf : t.rows.find? (fun a => key a = k) with _ | a
  · have hnil : t.rows.filter (fun a => key a = k) = [] := by
      rw [List.filter_eq_nil_iff]
      exact List.find?_eq_none.mp hf
    rw [hnil]
    rfl
  · rw [Table.filter_key hkey hf, List.countP_singleton]
    rfl

end Succeeding

section Executing
variable {t : Schema} {n : ℕ}

theorem commit_of_referenced {x : Tables} (h : Referenced x) : x.commit = .ok ⟨x, h⟩ := dif_pos h

/-- A change of the sessions that removes none and leaves their keys. -/
theorem execute_sessions {c : Change SessionsRow} {sessions : Table sameSession}
    (hrun : c.run t.sessions = .ok (sessions, n)) (hremoves : c.removes t.sessions = [])
    (hkeys : ∀ s ∈ t.sessions.rows, ∃ s' ∈ sessions.rows, s'.sessionPubkey = s.sessionPubkey) :
    ∃ t', execute t (.sessions c) = .ok (t', n) ∧ t'.sessions = sessions ∧
      t'.claimTickets.rows = t.claimTickets.rows ∧ t'.evidenceLog = t.evidenceLog := by
  have htickets : (t.claimTickets.delete fun _ => false).rows = t.claimTickets.rows :=
    List.filter_eq_self.mpr fun _ _ => rfl
  have href : Referenced ⟨sessions, t.claimTickets.delete fun _ => false, t.evidenceLog⟩ := by
    refine ⟨fun r hr => ?_, fun e he => ?_⟩
    · rw [htickets] at hr
      obtain ⟨s, hs, hk⟩ := t.referenced.1 r hr
      obtain ⟨s', hs', hk'⟩ := hkeys s hs
      exact ⟨s', hs', hk'.trans hk⟩
    · obtain ⟨s, hs, hk⟩ := t.referenced.2 e he
      obtain ⟨s', hs', hk'⟩ := hkeys s hs
      exact ⟨s', hs', hk'.trans hk⟩
  refine ⟨⟨_, href⟩, ?_, rfl, htickets, rfl⟩
  simp only [execute, hrun, ok_bind, hremoves, List.any_nil, implies_true, require_bind_of,
    commit_of_referenced href]
  rfl

/-- A change of the tickets that leaves them to sessions that exist. -/
theorem execute_claimTickets {c : Change TicketsRow} {claimTickets : Table sameTicket}
    (hrun : c.run t.claimTickets = .ok (claimTickets, n))
    (hkeys : ∀ r ∈ claimTickets.rows, ∃ s ∈ t.sessions.rows, s.sessionPubkey = r.sessionPubkey) :
    ∃ t', execute t (.claimTickets c) = .ok (t', n) ∧
      t'.toTables = { t.toTables with claimTickets := claimTickets } := by
  have href : Referenced { t.toTables with claimTickets := claimTickets } :=
    ⟨hkeys, t.referenced.2⟩
  refine ⟨⟨_, href⟩, ?_, rfl⟩
  simp only [execute, hrun, ok_bind, commit_of_referenced href]
  rfl

theorem execute_evidenceLog {r : EvidenceLogRow}
    (hfresh : ∀ a ∈ t.evidenceLog.rows, sameSequence a r = false)
    (hkey : ∃ s ∈ t.sessions.rows, s.sessionPubkey = r.sessionPubkey) :
    ∃ t', execute t (.evidenceLog (.insert r)) = .ok (t', 1) ∧ t'.sessions = t.sessions ∧
      t'.claimTickets = t.claimTickets ∧ t'.evidenceLog.rows = t.evidenceLog.rows ++ [r] := by
  obtain ⟨evidenceLog, hrun, hrows⟩ := Change.inserted_fresh hfresh
  have hrun' : (Change.insert r).run t.evidenceLog = .ok (evidenceLog, 1) := hrun
  have href : Referenced { t.toTables with evidenceLog := evidenceLog } := by
    refine ⟨t.referenced.1, fun e he => ?_⟩
    rw [hrows, List.mem_append, List.mem_singleton] at he
    rcases he with he | rfl
    · exact t.referenced.2 e he
    · exact hkey
  refine ⟨⟨_, href⟩, ?_, rfl, rfl, hrows⟩
  simp only [execute, hrun', ok_bind, Change.selects, implies_true, require_bind_of,
    commit_of_referenced href]
  rfl

end Executing

end AgentPay.EvidenceTables
