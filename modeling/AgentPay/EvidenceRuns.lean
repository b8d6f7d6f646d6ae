import AgentPay.StoreRuns
import AgentPay.EvidenceBinding

/-!
# The evidence log over every run of the store

Two results about any sequence of calls from empty tables. The log of a session
always reads back as a verified chain whose allowed entries climb to the ticket,
and a call appends at most one entry. Whether an attempt on an unsettled session
leaves its entry depends on the ticket write: amounts are clamped for the log but
not for the ticket, so an accepted claim with a nonce no `BIGINT` holds fails
there and its entry is rolled back with it.
-/
namespace AgentPay.EvidenceRuns
open SolanaRuntime EscrowState GatewayClaims EvidenceLog EvidenceBinding SessionStore StoreRuns
open Fallible Runs

/-- A store some sequence of calls leads to. -/
def Reached (sha256 : List UInt8 → Hash) (db : Database) : Prop :=
  Reachable (StoreStep sha256) (fun start => start = Database.empty) db

section Invariance
variable {sha256 : List UInt8 → Hash} {db db' : Database} {k : Pubkey}

theorem intact_empty : Intact sha256 Database.empty := fun _ => consistent_empty

theorem intact_step {call : StoreCall} (h : Intact sha256 db) (hs : StoreStep sha256 db call db') :
    Intact sha256 db' := by
  rw [hs]
  exact h.execute call

theorem Reached.intact (hr : Reached sha256 db) : Intact sha256 db :=
  Reachable.invariant hr (fun _ hs => hs ▸ intact_empty) fun _ _ _ h hs => intact_step h hs

/-- What one call may do to the log and the ticket of a session. -/
structure Appends (db db' : Database) (k : Pubkey) : Prop where
  appended : db'.evidence k = db.evidence k ∨ ∃ e, db'.evidence k = db.evidence k ++ [e]
  frozen : ∀ row, db.sessions k = some row → row.settled = true →
    db'.evidence k = db.evidence k ∧ db'.tickets k = db.tickets k

theorem Appends.of_eq (he : db'.evidence k = db.evidence k) (ht : db'.tickets k = db.tickets k) :
    Appends db db' k :=
  ⟨.inl he, fun _ _ _ => ⟨he, ht⟩⟩

/-- An entry goes to an unsettled session, and no other session is touched. -/
theorem Appends.of_push {session : Pubkey} {row : SessionRow} {e : EvidenceRow}
    (hrow : db.sessions session = some row) (hopen : row.settled = false)
    (he : ∀ k, db'.evidence k = if k = session then db.evidence session ++ [e] else db.evidence k)
    (ht : ∀ k, k ≠ session → db'.tickets k = db.tickets k) : Appends db db' k := by
  by_cases hk : k = session
  · subst hk
    refine ⟨.inr ⟨e, by rw [he, if_pos rfl]⟩, ?_⟩
    intro r hr hs
    rw [hrow, Option.some.injEq] at hr
    rw [← hr, hopen] at hs
    cases hs
  · exact .of_eq (by rw [he, if_neg hk]) (ht k hk)

theorem appends_of_wrote {call : StoreCall} (hw : Wrote sha256 db call db') :
    Appends db db' k := by
  cases hw with
  | refused hrow hopen _ _ =>
    exact .of_push hrow hopen (fun _ => pushEvidence_evidence) fun _ _ => rfl
  | admitted hrow hopen _ _ _ =>
    refine .of_push hrow hopen (fun _ => pushEvidence_evidence) ?_
    intro k hk
    rw [setTicket_tickets, if_neg hk]
    rfl
  | _ => exact .of_eq rfl rfl

end Invariance

section Agreement
variable {sha256 : List UInt8 → Hash} {db : Database} {k : Pubkey}

def allowedEntries (entries : List EvidenceEntry) : List EvidenceEntry :=
  entries.filter fun e => e.decision = Decision.allowed.asStr

/-- The loaded chain of a session verifies, its allowed entries climb within the
deposit, and the ticket is the last of them. -/
structure LogAgrees (sha256 : List UInt8 → Hash) (db : Database) (k : Pubkey)
    (entries : List EvidenceEntry) : Prop where
  loaded : loadEvidenceChain db k = .ok entries
  verified : verifyChain sha256 k entries = .ok ()
  numbered : ∀ (i : ℕ) (h : i < entries.length), entries[i].sequenceId.toInt = i
  increasing : (allowedEntries entries).Pairwise fun a b =>
    a.cumulativeAmount < b.cumulativeAmount ∧ a.nonce < b.nonce
  within : ∀ e ∈ allowedEntries entries, ∃ row, db.sessions k = some row ∧
    (e.cumulativeAmount.toNat : ℤ) ≤ row.depositedTotal.toInt
  ticket : (db.tickets k).map (fun t => (t.cumulativeAmount.toInt, t.nonce.toInt)) =
    (allowedEntries entries).getLast?.map fun e =>
      ((e.cumulativeAmount.toNat : ℤ), (e.nonce.toNat : ℤ))
  signature : (db.tickets k).map TicketRow.signature =
    (allowedRows (db.evidence k)).getLast?.map EvidenceRow.signature

theorem asStr_eq_allowed {d : Decision} : d.asStr = Decision.allowed.asStr ↔ d = .allowed := by
  cases d with
  | allowed => simp
  | notMonotonic => decide
  | nonceNotMonotonic => decide
  | exceedsDeposit => decide
  | sessionExpired => decide

theorem allowedEntries_map (log : List EvidenceRow) :
    allowedEntries (log.map EvidenceRow.entry) = (allowedRows log).map EvidenceRow.entry := by
  rw [allowedEntries, List.filter_map, allowedRows]
  congr 2
  funext e
  simp only [Function.comp, EvidenceRow.entry, asStr_eq_allowed]

theorem toUInt64_lt_of_nonneg {i j : Int64} (hi : 0 ≤ i.toInt) (h : i.toInt < j.toInt) :
    i.toUInt64 < j.toUInt64 := by
  have h₁ := Int64.toNat_toUInt64 hi
  have h₂ := Int64.toNat_toUInt64 (hi.trans h.le)
  rw [UInt64.lt_iff_toNat_lt]
  omega

theorem entries_increasing {row : Option SessionRow} {ticket : Option TicketRow}
    {log : List EvidenceRow} (h : Consistent sha256 k row ticket log) :
    (allowedEntries (log.map EvidenceRow.entry)).Pairwise fun a b =>
      a.cumulativeAmount < b.cumulativeAmount ∧ a.nonce < b.nonce := by
  rw [allowedEntries_map, List.pairwise_map]
  apply h.increasing.imp_of_mem
  intro a b ha _ hab
  have hn := h.linked.allowed_nonneg ha
  exact ⟨toUInt64_lt_of_nonneg hn.1 hab.1, toUInt64_lt_of_nonneg hn.2 hab.2⟩

theorem entries_within {row : Option SessionRow} {ticket : Option TicketRow}
    {log : List EvidenceRow} (h : Consistent sha256 k row ticket log) {e : EvidenceEntry}
    (he : e ∈ allowedEntries (log.map EvidenceRow.entry)) :
    ∃ r, row = some r ∧ (e.cumulativeAmount.toNat : ℤ) ≤ r.depositedTotal.toInt := by
  rw [allowedEntries_map, List.mem_map] at he
  rcases he with ⟨x, hx, rfl⟩
  rcases hrow : row with _ | r
  · rw [(h.untracked hrow).2] at hx
    cases hx
  · refine ⟨r, rfl, ?_⟩
    have hn := Int64.toNat_toUInt64 (h.linked.allowed_nonneg hx).1
    have hw := h.within r hrow x hx
    simp only [EvidenceRow.entry]
    omega

theorem entries_ticket {row : Option SessionRow} {ticket : Option TicketRow}
    {log : List EvidenceRow} (h : Consistent sha256 k row ticket log) :
    ticket.map (fun t => (t.cumulativeAmount.toInt, t.nonce.toInt)) =
      (allowedEntries (log.map EvidenceRow.entry)).getLast?.map fun e =>
        ((e.cumulativeAmount.toNat : ℤ), (e.nonce.toNat : ℤ)) := by
  have hmark := congrArg (Option.map fun m : Mark => (m.cumulativeAmount.toInt, m.nonce.toInt))
    h.ticket
  rw [Option.map_map, Option.map_map] at hmark
  rw [allowedEntries_map, List.getLast?_map, Option.map_map]
  refine hmark.trans ?_
  apply Option.map_congr
  intro e he
  have hn := h.linked.allowed_nonneg (List.mem_of_getLast? he)
  simp only [Function.comp, entryMark, EvidenceRow.entry, Int64.toNat_toUInt64 hn.1,
    Int64.toNat_toUInt64 hn.2]

theorem logAgrees_of_intact (h : Intact sha256 db) (k : Pubkey) :
    LogAgrees sha256 db k ((db.evidence k).map EvidenceRow.entry) := by
  have hc := h k
  refine ⟨loadEvidenceChain_eq hc, hc.linked.chain, ?_, entries_increasing hc,
    fun e he => entries_within hc he, entries_ticket hc, ?_⟩
  · intro i hi
    rw [List.getElem_map]
    exact hc.linked.numbered i (by simpa using hi)
  · have hmark := congrArg (Option.map Mark.signature) hc.ticket
    rw [Option.map_map, Option.map_map] at hmark
    exact hmark

end Agreement

/-- In every run the log and the ticket of every session agree, each call appends
at most one entry to a log, and neither the log nor the ticket of a settled
session changes. -/
theorem log_and_mark_agree {sha256 : List UInt8 → Hash} {h : History Database StoreCall}
    {db : Database} (hr : Run (StoreStep sha256) Database.empty h db) :
    (∀ k, ∃ entries, LogAgrees sha256 db k entries) ∧
      ∀ t ∈ h, ∀ k, Appends t.before t.after k := by
  have hintact : Intact sha256 db := hr.invariant_all (fun _ _ _ h hs => intact_step h hs)
    intact_empty
  refine ⟨fun k => ⟨_, logAgrees_of_intact hintact k⟩, ?_⟩
  intro t ht k
  have hbefore := hr.invariant_before (C := fun _ _ => True)
    (fun _ _ _ h _ hs => intact_step h hs) intact_empty (fun _ _ => trivial) t ht
  rw [hbefore.2]
  exact appends_of_wrote (execute_wrote hbefore.1 t.label)

/-! ### A concrete run

One session of 1000 whose log is that of `EvidenceBinding.Ledger`. -/
namespace Till

/-- The calls from the newest to the first. -/
def play (sha256 : List UInt8 → Hash) : List StoreCall → History Database StoreCall × Database
  | [] => ([], Database.empty)
  | call::calls =>
    let r := play sha256 calls
    let db := (execute sha256 r.2 call).2
    (⟨r.2, call, db⟩ :: r.1, db)

theorem play_run (sha256 : List UInt8 → Hash) (calls : List StoreCall) :
    Run (StoreStep sha256) Database.empty (play sha256 calls).1 (play sha256 calls).2 := by
  induction calls with
  | nil => exact .start
  | cons call calls ih => exact ih.step rfl

def record : SessionRecord := .new Ledger.session sampleAgent (.filled 3) (.filled 9) 1000 5000

def signature : Signature := Vector.replicate 64 7

def attempt (cumulativeAmount nonce : UInt64) : StoreCall :=
  .admitClaim ⟨Ledger.session, cumulativeAmount, nonce, 4000⟩ signature 2000

def opened : Database := (play Ledger.sha256 [.openSession record]).2

/-- A claim, its replay, a second claim, the settlement and a late claim. -/
def calls : List StoreCall :=
  [attempt 300 3, .markSettled Ledger.session, attempt 250 2, attempt 100 1, attempt 100 1,
    .openSession record]

end Till

theorem log_and_mark_agree_till :
    ((Till.play Ledger.sha256 Till.calls).2.evidence Ledger.session).map EvidenceRow.entry =
        Ledger.entries ∧
      (∀ k, ∃ entries, LogAgrees Ledger.sha256 (Till.play Ledger.sha256 Till.calls).2 k entries) ∧
      ∀ t ∈ (Till.play Ledger.sha256 Till.calls).1, ∀ k, Appends t.before t.after k := by
  refine ⟨?_, log_and_mark_agree (Till.play_run Ledger.sha256 Till.calls)⟩
  decide +kernel

section Attempts
variable {sha256 : List UInt8 → Hash} {db : Database} {claim : Claim} {signature : Signature}
variable {now : Int64} {record : SessionRecord}

/-- The attempt completed and left one entry, with the decision of its outcome. -/
def Recorded (sha256 : List UInt8 → Hash) (db : Database) (claim : Claim) (signature : Signature)
    (now : Int64) : Prop :=
  ∃ outcome db' e, admitClaim sha256 db claim signature now = .ok (db', outcome) ∧
    decisionOf outcome = some e.decision ∧
    db'.evidence = Function.update db.evidence claim.session (db.evidence claim.session ++ [e])

theorem recorded_of_ok {db' : Database} {outcome : Except ClaimRejection ClaimAccepted}
    {e : EvidenceRow} (h : admitClaim sha256 db claim signature now = .ok (db', outcome))
    (hd : decisionOf outcome = some e.decision)
    (he : db'.evidence = (db.pushEvidence claim.session e).evidence) :
    Recorded sha256 db claim signature now :=
  ⟨outcome, db', e, h, hd, he⟩

theorem not_recorded_of_error {err : StoreError}
    (h : admitClaim sha256 db claim signature now = .error err) :
    ¬Recorded sha256 db claim signature now := by
  intro hrec
  rcases hrec with ⟨outcome, db', e, hok, _⟩
  rw [h] at hok
  cases hok

/-- An attempt on a tracked, unsettled session leaves its one entry exactly when
the log has room and the claim, if it is acceptable, has a nonce that fits in the
ticket. When the call fails instead, neither table has changed. -/
theorem attempt_recorded_iff (hr : Reached sha256 db)
    (hget : getRecord db claim.session = .ok record) (hopen : record.isSettled = false) :
    (Recorded sha256 db claim signature now ↔ (db.evidence claim.session).length < 2 ^ 63 ∧
      (claim.nonce.toNat < 2 ^ 63 ∨ ∃ r, evaluateClaim record claim now = .error r)) ∧
    ∀ err, admitClaim sha256 db claim signature now = .error err →
      (execute sha256 db (.admitClaim claim signature now)).2.evidence = db.evidence ∧
      (execute sha256 db (.admitClaim claim signature now)).2.tickets = db.tickets := by
  constructor
  · rcases getRecord_loaded hget with ⟨row, _, hload⟩
    have hrec := getRecord_eq hr.intact hload.found
    rw [hget, Except.ok.injEq] at hrec
    have hcases := @admit_cases sha256 db claim signature now row hload.found
      (hr.intact.tracked hload.found)
    rw [← hrec] at hcases
    generalize hx : admitClaim sha256 db claim signature now = x at hcases
    cases hcases with
    | settled hs _ =>
      rw [hopen] at hs
      cases hs
    | refused _ he hd hroom =>
      exact iff_of_true (recorded_of_ok hx hd rfl) ⟨hroom, .inr ⟨_, he⟩⟩
    | accepted _ hroom hnonce =>
      exact iff_of_true (recorded_of_ok hx rfl rfl) ⟨hroom, .inl hnonce⟩
    | full _ hfull =>
      apply iff_of_false (not_recorded_of_error hx)
      intro hcond
      omega
    | nonceTooLarge he hlarge =>
      apply iff_of_false (not_recorded_of_error hx)
      intro hcond
      rcases hcond.2 with hn | ⟨r, hr⟩
      · omega
      · rw [he] at hr
        cases hr
  · intro err herr
    simp only [execute, herr]
    exact ⟨rfl, rfl⟩

end Attempts

namespace Till

theorem reached_opened : Reached Ledger.sha256 opened :=
  ⟨Database.empty, _, rfl, play_run Ledger.sha256 [.openSession record]⟩

def firstClaim : Claim := ⟨Ledger.session, 100, 1, 4000⟩

/-- Acceptable but for its nonce, the first that no `BIGINT` holds. -/
def largeNonce : Claim := ⟨Ledger.session, 100, UInt64.ofNat (2 ^ 63), 4000⟩

end Till

theorem attempt_recorded_till :
    getRecord Till.opened Ledger.session = .ok Till.record ∧
      Recorded Ledger.sha256 Till.opened Till.firstClaim Till.signature 2000 := by
  have hget : getRecord Till.opened Till.firstClaim.session = .ok Till.record := by
    decide +kernel
  refine ⟨hget, ?_⟩
  apply (attempt_recorded_iff Till.reached_opened hget rfl).1.mpr
  exact ⟨by decide +kernel, .inl (by decide)⟩

/-- The evaluation accepts the claim, the call fails and no entry is left. -/
theorem large_nonce_unrecorded :
    Reached Ledger.sha256 Till.opened ∧
      getRecord Till.opened Till.largeNonce.session = .ok Till.record ∧
      Till.record.isSettled = false ∧
      admitClaim Ledger.sha256 Till.opened Till.largeNonce Till.signature 2000 =
        .error .unavailable ∧
      ¬Recorded Ledger.sha256 Till.opened Till.largeNonce Till.signature 2000 := by
  have hfail : error? (admitClaim Ledger.sha256 Till.opened Till.largeNonce Till.signature 2000) =
      some .unavailable := by
    decide +kernel
  rw [error?_eq_some] at hfail
  refine ⟨Till.reached_opened, ?_, rfl, hfail, not_recorded_of_error hfail⟩
  decide +kernel

end AgentPay.EvidenceRuns
