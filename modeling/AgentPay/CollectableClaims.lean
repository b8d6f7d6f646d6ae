import AgentPay.StoreRefinement

/-!
# What the retained claim can still collect

A store keeps one claim for a session, the one with the highest amount. What can be
collected at a chain time is the amount of that claim while both its own expiry and
the session's allow it, and nothing afterwards. A further claim raises the amount
and replaces the expiry by its own, so it may collect less later on. The comparison
is made on what a store hands out, and both stores hand out the same.
-/
namespace AgentPay.CollectableClaims
open SolanaRuntime EscrowState GatewayClaims EvidenceLog SessionStore StoreRuns EvidenceRuns
open StoreRefinement EvidenceBinding EscrowEffects Fallible Runs

/-- A chain time not past an expiry and its tolerance. The sum is one of integers. The
program adds the two in `i64` and refuses a claim whose sum passes it, so what is counted
here for such a claim is not paid. -/
def InTime (expiresAt t : Int64) : Prop :=
  t.toInt ≤ expiresAt.toInt + clockSkewToleranceSecs.toInt

instance (expiresAt t : Int64) : Decidable (InTime expiresAt t) :=
  inferInstanceAs (Decidable (_ ≤ _))

/-- What can be settled of a record at a chain time, as the two expiries say: the amount of
the retained claim or nothing. Vault, receipt and signature are not looked at. -/
def settleable (record : SessionRecord) (t : Int64) : ℕ :=
  match record.highestClaim with
  | some highest =>
    if InTime highest.claim.expiresAt t ∧ InTime record.expiresAt t then
      highest.claim.cumulativeAmount.toNat
    else 0
  | none => 0

abbrev Reads := Pubkey → Except StoreError SessionRecord

def settleableIn (get : Reads) (session : Pubkey) (t : Int64) : ℕ :=
  match get session with
  | .ok record => settleable record t
  | .error _ => 0

/-- The claim does not expire before the retained one unless the session does, or
unless no chain time is past its tolerance, in the sum of integers. -/
def Outlasts (record : SessionRecord) (claim : Claim) : Prop :=
  ∀ old, record.highestClaim = some old →
    old.claim.expiresAt.toInt ≤ claim.expiresAt.toInt ∨
      record.expiresAt.toInt ≤ claim.expiresAt.toInt ∨
      ∀ t, InTime claim.expiresAt t

/-- The retained claim is the one that set the mark. -/
def Retained (record : SessionRecord) : Prop :=
  ∀ old, record.highestClaim = some old →
    old.claim.cumulativeAmount = record.cumulativeAccepted ∧
      0 < old.claim.cumulativeAmount.toNat

/-- An admission as the reads of a store show it. -/
structure Admits (get get' : Reads) (claim : Claim) (signature : Signature) (now : Int64)
    (record : SessionRecord) : Prop where
  before : get claim.session = .ok record
  retained : Retained record
  accepted : ∃ acc, Accepted record claim now acc ∧
    get' claim.session = .ok (MemoryStore.advance record claim signature acc)
  others : ∀ k, k ≠ claim.session → get' k = get k

section Records
variable {record : SessionRecord} {claim : Claim} {signature : Signature} {now : Int64}
variable {acc : ClaimAccepted} {t : Int64}

theorem inTime_iff {e : Int64} : InTime e t ↔ t.toInt ≤ e.toInt + 30 := by
  rw [InTime, clockSkewToleranceSecs_toInt]

theorem settleable_advance : settleable (MemoryStore.advance record claim signature acc) t =
    if InTime claim.expiresAt t ∧ InTime record.expiresAt t then claim.cumulativeAmount.toNat
    else 0 := rfl

/-- A claim that outlasts the retained one collects more whenever that one collects. -/
theorem settleable_le_advance (hk : Retained record) (hacc : Accepted record claim now acc)
    (ho : Outlasts record claim) :
    settleable record t ≤ settleable (MemoryStore.advance record claim signature acc) t := by
  rw [settleable_advance]
  rcases hold : record.highestClaim with _ | old
  · simp only [settleable, hold, Nat.zero_le]
  · have hmark := (hk old hold).1
    have habove := hacc.above
    have hlast := ho old hold
    simp only [settleable, hold]
    by_cases hb : InTime old.claim.expiresAt t ∧ InTime record.expiresAt t
    · have hnew : InTime claim.expiresAt t := by
        rcases hlast with hl | hl | hl
        · rw [inTime_iff] at hb ⊢
          omega
        · rw [inTime_iff, inTime_iff] at hb
          rw [inTime_iff]
          omega
        · exact hl t
      rw [if_pos hb, if_pos ⟨hnew, hb.2⟩, hmark]
      exact habove.le
    · rw [if_neg hb]
      exact Nat.zero_le _

/-- One second past the tolerance of a claim that does not outlast the retained one,
that one could still be collected. -/
theorem outlasts_of_settleable_le (hk : Retained record) (hexp : claim.isExpired now = false)
    (h : ∀ t, now ≤ t →
      settleable record t ≤ settleable (MemoryStore.advance record claim signature acc) t) :
    Outlasts record claim := by
  intro old hold
  by_contra hlast
  rw [not_or, not_or, not_forall] at hlast
  rcases hlast with ⟨hold', hsession, late, hlate⟩
  rw [inTime_iff] at hlate
  have hlow := claim.expiresAt.le_toInt
  have hhigh := late.toInt_lt
  have hunexpired := isExpired_eq_false_iff.mp hexp
  have ht : (Int64.ofInt (claim.expiresAt.toInt + 31)).toInt = claim.expiresAt.toInt + 31 :=
    Int64.toInt_ofInt_of_le (by omega) (by omega)
  have hle := h (Int64.ofInt (claim.expiresAt.toInt + 31))
    (by rw [Int64.le_iff_toInt_le, ht]; omega)
  have hbefore : InTime old.claim.expiresAt (Int64.ofInt (claim.expiresAt.toInt + 31)) ∧
      InTime record.expiresAt (Int64.ofInt (claim.expiresAt.toInt + 31)) := by
    rw [inTime_iff, inTime_iff, ht]
    omega
  have hafter : ¬InTime claim.expiresAt (Int64.ofInt (claim.expiresAt.toInt + 31)) := by
    rw [inTime_iff, ht]
    omega
  rw [settleable_advance, if_neg fun ha => hafter ha.1] at hle
  simp only [settleable, hold, if_pos hbefore] at hle
  have hpos := (hk old hold).2
  omega

end Records

/-- Whatever the store, an admission leaves as much collectable at every later time
exactly when its claim outlasts the retained one. -/
theorem Admits.settleable_iff {get get' : Reads} {claim : Claim} {signature : Signature}
    {now : Int64} {record : SessionRecord} (h : Admits get get' claim signature now record)
    (hexp : claim.isExpired now = false) :
    (∀ k t, now ≤ t → settleableIn get k t ≤ settleableIn get' k t) ↔ Outlasts record claim := by
  rcases h.accepted with ⟨acc, hacc, hafter⟩
  constructor
  · intro hle
    apply outlasts_of_settleable_le h.retained hexp
    intro t ht
    have hsession := hle claim.session t ht
    simp only [settleableIn, h.before, hafter] at hsession
    exact hsession
  · intro ho k t _
    by_cases hk : k = claim.session
    · subst hk
      simp only [settleableIn, h.before, hafter]
      exact settleable_le_advance h.retained hacc ho
    · rw [settleableIn, settleableIn, h.others k hk]

/-! ### The tables -/

section Tables
variable {sha256 : List UInt8 → Hash} {db db' : Database} {claim : Claim} {signature : Signature}
variable {now : Int64} {acc : ClaimAccepted}

/-- Tickets are written by admissions only, for more than nothing. -/
def PositiveTickets (db : Database) : Prop :=
  ∀ k t, db.tickets k = some t → 0 < t.cumulativeAmount.toInt

theorem ticketOf_positive {row : SessionRow} {ticket : Option TicketRow} {log : List EvidenceRow}
    (hc : Consistent sha256 claim.session (some row) ticket log)
    (hacc : Accepted (recordOf claim.session row ticket) claim now acc) :
    0 < (ticketOf claim signature).cumulativeAmount.toInt := by
  have hcum := UInt64.toInt_toInt64 (accepted_within hc hacc).2
  have habove := hacc.above
  rw [ticketOf, hcum]
  omega

theorem positiveTickets_wrote {call : StoreCall} (h : Intact sha256 db) (hp : PositiveTickets db)
    (hw : Wrote sha256 db call db') : PositiveTickets db' := by
  cases hw with
  | admitted hrow _ _ hacc _ =>
    intro k t ht
    rw [setTicket_tickets] at ht
    split_ifs at ht
    · cases ht
      exact ticketOf_positive (h.tracked hrow) hacc
    · exact hp k t ht
  | _ => exact hp

theorem positiveTickets_reached (hr : Reached sha256 db) : PositiveTickets db := by
  have hboth : Intact sha256 db ∧ PositiveTickets db := by
    apply Reachable.invariant hr
    · intro start hs
      subst hs
      exact ⟨intact_empty, fun k t ht => by cases ht⟩
    · intro s call s' hI hs
      rw [hs]
      exact ⟨hI.1.execute call, positiveTickets_wrote hI.1 hI.2 (execute_wrote hI.1 call)⟩
  exact hboth.2

theorem retained_recordOf {row : SessionRow} {k : Pubkey} (hp : PositiveTickets db) :
    Retained (recordOf k row (db.tickets k)) := by
  intro old hold
  rcases ht : db.tickets k with _ | t
  · rw [ht] at hold
    cases hold
  · rw [ht] at hold
    cases hold
    have hpos := hp k t ht
    have hnat := Int64.toNat_toUInt64 hpos.le
    refine ⟨rfl, ?_⟩
    simp only [ticketClaim]
    omega

theorem admits_tables (hr : Reached sha256 db)
    (hok : admitClaim sha256 db claim signature now = .ok (db', .ok acc)) :
    ∃ record, Admits (getRecord db) (getRecord db') claim signature now record := by
  rcases hrow : db.sessions claim.session with _ | row
  · rw [admitClaim_untracked hrow] at hok
    cases hok
  · have hc := hr.intact.tracked hrow
    have hcases := @admit_cases sha256 db claim signature now row hrow hc
    rw [hok] at hcases
    cases hcases with
    | accepted he hroom hnonce =>
      have hacc := evaluateClaim_eq_ok.mp he
      have hafter := @Intact.push_allowed sha256 db claim signature now hr.intact row acc hrow hacc
        hroom hnonce
      refine ⟨_, getRecord_eq hr.intact hrow, retained_recordOf (positiveTickets_reached hr),
        ⟨acc, hacc, ?_⟩, ?_⟩
      · rw [getRecord_eq hafter hrow, setTicket_tickets, if_pos rfl,
          @recordOf_ticketOf sha256 claim signature now row _ _ _ hc hacc hnonce]
      · intro k hk
        simp only [getRecord, loadSession, setTicket_sessions, pushEvidence_sessions,
          setTicket_tickets_of_ne hk]

end Tables

/-! ### The map -/

section Maps
variable {m m' : MemoryStore} {claim : Claim} {signature : Signature} {now : Int64}
variable {acc : ClaimAccepted}

/-- One call of the in-memory store; the gateway opens sessions with new records. -/
def MemoryStep (m : MemoryStore) (call : StoreCall) (m' : MemoryStore) : Prop :=
  (∀ record, call = .openSession record → Fresh record) ∧ m' = (m.execute call).2

def MemoryReached (m : MemoryStore) : Prop :=
  Reachable MemoryStep (fun start => start = MemoryStore.new) m

def RetainedAll (m : MemoryStore) : Prop := ∀ k record, m k = some record → Retained record

theorem RetainedAll.insert {record : SessionRecord} {k : Pubkey} (h : RetainedAll m)
    (hr : Retained record) : RetainedAll (m.insert record k) := by
  intro k' record' hrec
  rw [MemoryStore.insert, Function.update_apply] at hrec
  split_ifs at hrec
  · cases hrec
    exact hr
  · exact h k' record' hrec

theorem retained_advance {record : SessionRecord} (hacc : Accepted record claim now acc) :
    Retained (MemoryStore.advance record claim signature acc) := by
  intro old hold
  cases hold
  have habove := hacc.above
  refine ⟨?_, Nat.lt_of_le_of_lt (Nat.zero_le _) habove⟩
  simp only [MemoryStore.advance]
  rw [hacc.result]

theorem retainedAll_step {call : StoreCall} (h : RetainedAll m) (hs : MemoryStep m call m') :
    RetainedAll m' := by
  rcases hs with ⟨hfresh, rfl⟩
  cases call with
  | openSession record =>
    simp only [MemoryStore.execute, MemoryStore.openRecord]
    rcases m record.session with _ | old
    · apply h.insert
      intro old hold
      rw [hfresh record rfl] at hold
      cases hold
    · exact h
  | getSession k => exact h
  | admitClaim claim signature now =>
    simp only [MemoryStore.execute, MemoryStore.admitClaim]
    rcases m claim.session with _ | record
    · exact h
    · rcases he : evaluateClaim record claim now with r | acc
      · simp only [he, commit]
        exact h
      · simp only [he, commit]
        exact h.insert (retained_advance (evaluateClaim_eq_ok.mp he))
  | markSettled k =>
    simp only [MemoryStore.execute, MemoryStore.markSettled]
    rcases hm : m k with _ | record
    · exact h
    · exact h.insert (h k record hm)
  | markChainVerified k =>
    simp only [MemoryStore.execute, MemoryStore.markChainVerified]
    rcases hm : m k with _ | record
    · exact h
    · exact h.insert (h k record hm)
  | restart => exact h

theorem admits_map (hr : MemoryReached m)
    (hok : m.admitClaim claim signature now = .ok (m', .ok acc)) :
    ∃ record, Admits m.getRecord m'.getRecord claim signature now record := by
  have hall : RetainedAll m := by
    apply Reachable.invariant hr
    · intro start hs k record hrec
      subst hs
      cases hrec
    · intro s call s' hI hs
      exact retainedAll_step hI hs
  rcases hm : m claim.session with _ | record
  · simp only [MemoryStore.admitClaim, hm] at hok
    cases hok
  · rcases he : evaluateClaim record claim now with r | acc'
    · simp only [MemoryStore.admitClaim, hm, he, Except.ok.injEq, Prod.mk.injEq, reduceCtorEq,
        and_false] at hok
    · simp only [MemoryStore.admitClaim, hm, he, Except.ok.injEq, Prod.mk.injEq] at hok
      rcases hok with ⟨rfl, -⟩
      refine ⟨record, ?_, hall _ record hm, ⟨acc', evaluateClaim_eq_ok.mp he, ?_⟩, ?_⟩
      · simp only [MemoryStore.getRecord, hm, okOr]
      · simp only [MemoryStore.getRecord, MemoryStore.insert, Function.update_self, okOr]
      · intro k hk
        simp only [MemoryStore.getRecord, MemoryStore.insert, Function.update_of_ne hk]

end Maps

/-- In every reachable state of either store, admitting an unexpired claim leaves as
much collectable at every later time, on every session, exactly when the claim
outlasts the one that was retained. -/
theorem admission_keeps_collectable_iff {sha256 : List UInt8 → Hash} {claim : Claim}
    {signature : Signature} {now : Int64} {acc : ClaimAccepted}
    (hexp : claim.isExpired now = false) :
    (∀ db db', Reached sha256 db →
      admitClaim sha256 db claim signature now = .ok (db', .ok acc) →
      ((∀ k t, now ≤ t → settleableIn (getRecord db) k t ≤ settleableIn (getRecord db') k t) ↔
        ∃ record, getRecord db claim.session = .ok record ∧ Outlasts record claim)) ∧
    ∀ m m', MemoryReached m →
      MemoryStore.admitClaim m claim signature now = .ok (m', .ok acc) →
      ((∀ k t, now ≤ t → settleableIn (MemoryStore.getRecord m) k t ≤
          settleableIn (MemoryStore.getRecord m') k t) ↔
        ∃ record, MemoryStore.getRecord m claim.session = .ok record ∧
          Outlasts record claim) := by
  have hread {get get' : Reads} {record : SessionRecord}
      (ha : Admits get get' claim signature now record) :
      (∀ k t, now ≤ t → settleableIn get k t ≤ settleableIn get' k t) ↔
        ∃ r, get claim.session = .ok r ∧ Outlasts r claim := by
    rw [ha.settleable_iff hexp, ha.before]
    simp only [Except.ok.injEq, exists_eq_left']
  constructor
  · intro db db' hr hok
    obtain ⟨record, ha⟩ := admits_tables hr hok
    exact hread ha
  · intro m m' hr hok
    obtain ⟨record, ha⟩ := admits_map hr hok
    exact hread ha

/-! ### A claim that expires early -/
namespace Till

/-- A claim for 100 with expiry 4000 is retained. -/
def retained : Database :=
  (EvidenceRuns.Till.play Ledger.sha256
    [EvidenceRuns.Till.attempt 100 1, .openSession EvidenceRuns.Till.record]).2

theorem reached_retained : Reached Ledger.sha256 retained :=
  ⟨Database.empty, _, rfl, EvidenceRuns.Till.play_run Ledger.sha256 _⟩

def further (expiresAt : Int64) : Claim := ⟨Ledger.session, 500, 2, expiresAt⟩

/-- The tables after the further claim was presented at 2000. -/
def after (expiresAt : Int64) : Database :=
  (execute Ledger.sha256 retained
    (.admitClaim (further expiresAt) EvidenceRuns.Till.signature 2000)).2

/-- The reply of a call tells that its claim was admitted. -/
theorem admitClaim_of_reply {sha256 : List UInt8 → Hash} {db : Database} {claim : Claim}
    {signature : Signature} {now : Int64} {acc : ClaimAccepted}
    (h : (execute sha256 db (.admitClaim claim signature now)).1 = .decided (.ok (.ok acc))) :
    admitClaim sha256 db claim signature now =
      .ok ((execute sha256 db (.admitClaim claim signature now)).2, .ok acc) := by
  simp only [execute, StoreReply.decided.injEq] at h ⊢
  rcases hx : admitClaim sha256 db claim signature now with e | ⟨db', outcome⟩
  · rw [hx] at h
    cases h
  · rw [hx, commit, Except.ok.injEq] at h
    rw [h]
    rfl

end Till

theorem admission_keeps_collectable_till :
    settleableIn (getRecord Till.retained) Ledger.session 3000 = 100 ∧
      ∀ k t, 2000 ≤ t → settleableIn (getRecord Till.retained) k t ≤
        settleableIn (getRecord (Till.after 4500)) k t := by
  refine ⟨by decide +kernel, ?_⟩
  have hreply : (execute Ledger.sha256 Till.retained
      (.admitClaim (Till.further 4500) EvidenceRuns.Till.signature 2000)).1 =
        .decided (.ok (.ok ⟨500, 100, 400, 2⟩)) := by
    decide +kernel
  have hexp : (Till.further 4500).isExpired 2000 = false := by decide
  have hiff := (admission_keeps_collectable_iff hexp).1 _ _ Till.reached_retained
    (Till.admitClaim_of_reply hreply)
  apply hiff.mpr
  have hget : getRecord Till.retained Ledger.session =
      .ok { EvidenceRuns.Till.record with
        cumulativeAccepted := 100
        lastNonce := some 1
        highestClaim := some ⟨⟨Ledger.session, 100, 1, 4000⟩, EvidenceRuns.Till.signature⟩ } := by
    decide +kernel
  refine ⟨_, hget, ?_⟩
  intro old hold
  cases hold
  exact .inl (by decide)

/-- The same claim with expiry 2100 is admitted, and at 3000 nothing can be
collected any more. -/
theorem early_claim_collects_less :
    Reached Ledger.sha256 Till.retained ∧ (Till.further 2100).isExpired 2000 = false ∧
      admitClaim Ledger.sha256 Till.retained (Till.further 2100) EvidenceRuns.Till.signature 2000 =
        .ok (Till.after 2100, .ok ⟨500, 100, 400, 2⟩) ∧
      settleableIn (getRecord Till.retained) Ledger.session 3000 = 100 ∧
      settleableIn (getRecord (Till.after 2100)) Ledger.session 3000 = 0 := by
  refine ⟨Till.reached_retained, by decide, ?_, by decide +kernel, by decide +kernel⟩
  apply Till.admitClaim_of_reply
  decide +kernel

end AgentPay.CollectableClaims
