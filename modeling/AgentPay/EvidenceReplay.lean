import AgentPay.EvidenceRuns

/-!
# Replaying the evidence log

An auditor reads a session's entries back and judges each of them again with the
amount and nonce rules, starting from an empty mark. Entries hold clamped values,
so the second judgement is made on other numbers than the first. The two differ
when a value above `i64::MAX` is clamped onto the very bound it was refused for
passing, and on no other attempt.
-/
namespace AgentPay.EvidenceReplay
open SolanaRuntime EscrowState GatewayClaims EvidenceLog EvidenceBinding SessionStore StoreRuns
open EvidenceRuns Fallible Runs

structure ReplayMark where
  cumulativeAmount : UInt64
  lastNonce : Option UInt64
deriving DecidableEq

def ReplayMark.empty : ReplayMark := ⟨0, none⟩

/-- A record on which only the amount and nonce rules can refuse at time 0. -/
def replayRecord (session : Pubkey) (depositedTotal : UInt64) (mark : ReplayMark) :
    SessionRecord :=
  { SessionRecord.new session (.filled 0) (.filled 0) (.filled 0) depositedTotal 0 with
    cumulativeAccepted := mark.cumulativeAmount
    lastNonce := mark.lastNonce }

/-- One entry judged again; `none` when the stored decision is another one. -/
def replayStep (session : Pubkey) (depositedTotal : UInt64) (mark : ReplayMark)
    (e : EvidenceEntry) : Option ReplayMark :=
  if e.decision = Decision.sessionExpired.asStr then some mark
  else
    let outcome := evaluateClaim (replayRecord session depositedTotal mark)
      ⟨session, e.cumulativeAmount, e.nonce, 0⟩ 0
    if (decisionOf outcome).map Decision.asStr = some e.decision then
      match outcome with
      | .ok acc => some ⟨acc.cumulativeAmount, some acc.nonce⟩
      | .error _ => some mark
    else none

/-- The mark a replay that reproduces every decision ends with. -/
def replay (session : Pubkey) (depositedTotal : UInt64) (entries : List EvidenceEntry) :
    Option ReplayMark :=
  entries.foldlM (replayStep session depositedTotal) .empty

/-- The clamp moves a refused value onto the bound it is compared with: an amount
over a deposit of `i64::MAX`, or, for an amount over the deposit, a nonce over a last
nonce of `i64::MAX`. -/
def Blurs (record : SessionRecord) (claim : Claim) : Prop :=
  (record.depositedTotal.toNat = 2 ^ 63 - 1 ∧ 2 ^ 63 ≤ claim.cumulativeAmount.toNat ∧
    (record.cumulativeAccepted.toNat = 2 ^ 63 - 1 ∨
      nonceAdvances record.lastNonce claim.nonce)) ∨
  (record.lastNonce = some (UInt64.ofNat (2 ^ 63 - 1)) ∧ 2 ^ 63 ≤ claim.nonce.toNat ∧
    record.depositedTotal.toNat < claim.cumulativeAmount.toNat)

/-- The attempt is recorded, judged by the amount and nonce rules, and blurred. -/
def Blurred (db : Database) (claim : Claim) (now : Int64) : Prop :=
  (db.evidence claim.session).length < 2 ^ 63 ∧
    ∃ record, getRecord db claim.session = .ok record ∧ record.isSettled = false ∧
      now ≤ sessionLimit record.expiresAt ∧ Blurs record claim

/-- No attempt on the session was blurred. -/
def Clear (session : Pubkey) (h : History Database StoreCall) : Prop :=
  ∀ t ∈ h, ∀ claim signature now, t.label = .admitClaim claim signature now →
    claim.session = session → ¬Blurred t.before claim now

/-! ### Verdicts -/

section Verdicts
variable {record : SessionRecord} {claim : Claim} {now : Int64} {d : Decision}

/-- The amount and nonce rules of `evaluate_claim`, in their order. -/
def verdict (deposited mark : ℕ) (last : Option UInt64) (amount : ℕ) (nonce : UInt64) : Decision :=
  if amount ≤ mark then .notMonotonic
  else if ¬nonceAdvances last nonce then .nonceNotMonotonic
  else if deposited < amount then .exceedsDeposit
  else .allowed

def markOf (record : SessionRecord) : ReplayMark := ⟨record.cumulativeAccepted, record.lastNonce⟩

theorem decisionOf_inTime (hopen : record.isSettled = false)
    (htime : now ≤ sessionLimit record.expiresAt) :
    decisionOf (evaluateClaim record claim now) = some (verdict record.depositedTotal.toNat
      record.cumulativeAccepted.toNat record.lastNonce claim.cumulativeAmount.toNat
      claim.nonce) := by
  unfold evaluateClaim verdict
  simp only [require, hopen, htime, if_true, ok_bind, UInt64.lt_iff_toNat_lt,
    UInt64.le_iff_toNat_le]
  by_cases hamount : record.cumulativeAccepted.toNat < claim.cumulativeAmount.toNat
  · have hdelta : claim.cumulativeAmount.checkedSub record.cumulativeAccepted ≠ none := by
      intro hnone
      rw [UInt64.checkedSub_eq_none] at hnone
      omega
    rw [if_pos hamount, if_neg (Nat.not_le.mpr hamount)]
    by_cases hnonce : nonceAdvances record.lastNonce claim.nonce
    · rw [if_pos hnonce, if_neg (not_not.mpr hnonce)]
      by_cases hdeposit : claim.cumulativeAmount.toNat ≤ record.depositedTotal.toNat
      · rw [if_pos hdeposit, if_neg (Nat.not_lt.mpr hdeposit)]
        obtain ⟨delta, hd⟩ := Option.ne_none_iff_exists'.mp hdelta
        rw [hd]
        rfl
      · rw [if_neg hdeposit, if_pos (Nat.not_le.mp hdeposit)]
        rfl
    · rw [if_neg hnonce, if_pos hnonce]
      rfl
  · rw [if_neg hamount, if_pos (Nat.not_lt.mp hamount)]
    rfl

theorem decisionOf_late (hopen : record.isSettled = false)
    (htime : ¬now ≤ sessionLimit record.expiresAt) :
    decisionOf (evaluateClaim record claim now) = some .sessionExpired := by
  unfold evaluateClaim
  simp only [require, hopen, htime, if_true, if_false, ok_bind]
  rfl

/-- The bounds of a stored record: `BIGINT` columns and a mark within the deposit. -/
structure Bounded (record : SessionRecord) : Prop where
  mark : record.cumulativeAccepted.toNat ≤ record.depositedTotal.toNat
  deposit : record.depositedTotal.toNat < 2 ^ 63
  nonce : ∀ l, record.lastNonce = some l → l.toNat < 2 ^ 63

theorem nonceAdvances_clamp {last : Option UInt64} {nonce : UInt64}
    (hl : ∀ l, last = some l → l.toNat < 2 ^ 63) :
    nonceAdvances last (clampI64 nonce) ↔ nonceAdvances last nonce ∧
      (last = some (UInt64.ofNat (2 ^ 63 - 1)) → nonce.toNat < 2 ^ 63) := by
  cases last with
  | none => simp [nonceAdvances]
  | some l =>
    have hlt := hl l rfl
    have hmax : (UInt64.ofNat (2 ^ 63 - 1)).toNat = 2 ^ 63 - 1 := rfl
    simp only [nonceAdvances, UInt64.lt_iff_toNat_lt, clampI64_toNat, Option.some.injEq,
      ← UInt64.toNat_inj, hmax]
    omega

/-- The clamped attempt gets the verdict of the attempt unless it is blurred. -/
theorem verdict_clamp_iff (hb : Bounded record)
    (hrec : nonceAdvances record.lastNonce claim.nonce →
      claim.cumulativeAmount.toNat ≤ record.depositedTotal.toNat →
      record.cumulativeAccepted.toNat < claim.cumulativeAmount.toNat → claim.nonce.toNat < 2 ^ 63) :
    verdict record.depositedTotal.toNat record.cumulativeAccepted.toNat record.lastNonce
        (clampI64 claim.cumulativeAmount).toNat (clampI64 claim.nonce) =
      verdict record.depositedTotal.toNat record.cumulativeAccepted.toNat record.lastNonce
        claim.cumulativeAmount.toNat claim.nonce ↔ ¬Blurs record claim := by
  have hmark := hb.mark
  have hdeposit := hb.deposit
  have hnonce := @nonceAdvances_clamp record.lastNonce claim.nonce hb.nonce
  have hover : record.lastNonce = some (UInt64.ofNat (2 ^ 63 - 1)) → 2 ^ 63 ≤ claim.nonce.toNat →
      nonceAdvances record.lastNonce claim.nonce := by
    intro hlast hlarge
    rw [hlast, nonceAdvances, UInt64.lt_iff_toNat_lt]
    exact Nat.lt_of_lt_of_le (by decide) hlarge
  have hamount := clampI64_toNat claim.cumulativeAmount
  unfold verdict Blurs
  grind

theorem not_blurs_of_accepted {acc : ClaimAccepted} (hb : Bounded record)
    (hacc : Accepted record claim now acc) : ¬Blurs record claim := by
  have hwithin := hacc.within
  have hdeposit := hb.deposit
  intro hblurs
  rcases hblurs with ⟨-, hlarge, -⟩ | ⟨-, -, hover⟩
  · omega
  · omega

theorem asStr_injective : Function.Injective Decision.asStr := by
  intro a b
  cases a <;> cases b <;> decide

/-- An entry that is not skipped is judged by the amount and nonce rules. -/
theorem replayStep_eq {session : Pubkey} {depositedTotal : UInt64} {mark : ReplayMark}
    {e : EvidenceEntry} (he : e.decision ≠ Decision.sessionExpired.asStr) :
    replayStep session depositedTotal mark e =
      if (verdict depositedTotal.toNat mark.cumulativeAmount.toNat mark.lastNonce
          e.cumulativeAmount.toNat e.nonce).asStr = e.decision then
        some (if verdict depositedTotal.toNat mark.cumulativeAmount.toNat mark.lastNonce
            e.cumulativeAmount.toNat e.nonce = .allowed then
          ⟨e.cumulativeAmount, some e.nonce⟩ else mark)
      else none := by
  have htime : (0 : Int64) ≤ sessionLimit 0 := by decide
  have hdec : decisionOf (evaluateClaim (replayRecord session depositedTotal mark)
      ⟨session, e.cumulativeAmount, e.nonce, 0⟩ 0) = some (verdict depositedTotal.toNat
        mark.cumulativeAmount.toNat mark.lastNonce e.cumulativeAmount.toNat e.nonce) :=
    decisionOf_inTime rfl htime
  rw [replayStep, if_neg he]
  simp only [hdec, Option.map_some, Option.some.injEq]
  rcases ho : evaluateClaim (replayRecord session depositedTotal mark)
    ⟨session, e.cumulativeAmount, e.nonce, 0⟩ 0 with r | acc
  · have hne : verdict depositedTotal.toNat mark.cumulativeAmount.toNat mark.lastNonce
        e.cumulativeAmount.toNat e.nonce ≠ .allowed := by
      intro hallowed
      rw [ho, hallowed] at hdec
      cases r <;> cases hdec
    rw [if_neg hne]
  · rw [ho] at hdec
    rw [if_pos (Option.some.inj hdec).symm, (evaluateClaim_eq_ok.mp ho).result]

theorem verdict_ne_expired {deposited mark amount : ℕ} {last : Option UInt64} {nonce : UInt64} :
    verdict deposited mark last amount nonce ≠ .sessionExpired := by
  unfold verdict
  split_ifs <;> decide

/-- The entry of an attempt that was judged by the amount and nonce rules, judged
again. -/
theorem replayStep_entry {e : EvidenceEntry} (hopen : record.isSettled = false)
    (htime : now ≤ sessionLimit record.expiresAt) (hb : Bounded record)
    (hamount : e.cumulativeAmount = clampI64 claim.cumulativeAmount)
    (hnonce : e.nonce = clampI64 claim.nonce)
    (hdec : decisionOf (evaluateClaim record claim now) = some d) (he : e.decision = d.asStr)
    (hrec : d = .allowed → claim.nonce.toNat < 2 ^ 63) :
    (Blurs record claim → replayStep record.session record.depositedTotal (markOf record) e =
      none) ∧
    (¬Blurs record claim → replayStep record.session record.depositedTotal (markOf record) e =
      some (if d = .allowed then ⟨claim.cumulativeAmount, some claim.nonce⟩ else markOf record)) := by
  rw [decisionOf_inTime hopen htime, Option.some.injEq] at hdec
  have hskip : e.decision ≠ Decision.sessionExpired.asStr := by
    rw [he, ← hdec]
    exact fun h => verdict_ne_expired (asStr_injective h)
  have hfits : nonceAdvances record.lastNonce claim.nonce →
      claim.cumulativeAmount.toNat ≤ record.depositedTotal.toNat →
      record.cumulativeAccepted.toNat < claim.cumulativeAmount.toNat →
      claim.nonce.toNat < 2 ^ 63 := by
    intro h₁ h₂ h₃
    apply hrec
    rw [← hdec, verdict, if_neg (Nat.not_le.mpr h₃), if_neg (not_not.mpr h₁),
      if_neg (Nat.not_lt.mpr h₂)]
  have hsame : verdict record.depositedTotal.toNat (markOf record).cumulativeAmount.toNat
      (markOf record).lastNonce (clampI64 claim.cumulativeAmount).toNat (clampI64 claim.nonce) =
        d ↔ ¬Blurs record claim := by
    rw [← hdec]
    exact verdict_clamp_iff hb hfits
  rw [replayStep_eq hskip, hamount, hnonce, he]
  constructor
  · intro hblurs
    rw [if_neg fun h => hsame.mp (asStr_injective h) hblurs]
  · intro hclear
    have hv := hsame.mpr hclear
    rw [if_pos (congrArg Decision.asStr hv), hv]
    split_ifs with hallowed
    · have hwithin : claim.cumulativeAmount.toNat ≤ record.depositedTotal.toNat := by
        rw [hallowed, verdict] at hdec
        split_ifs at hdec with h₁ h₂ h₃
        exact Nat.not_lt.mp h₃
      have hdeposit := hb.deposit
      rw [clampI64_of_lt (by omega), clampI64_of_lt (hrec hallowed)]
    · rfl

end Verdicts

/-! ### Runs -/

section Steps
variable {sha256 : List UInt8 → Hash} {db db' : Database} {k session : Pubkey} {row : SessionRow}
variable {claim : Claim} {signature : Signature} {now : Int64}

theorem clear_cons {t : Transition Database StoreCall} {h : History Database StoreCall} :
    Clear k (t :: h) ↔ (∀ claim signature now, t.label = .admitClaim claim signature now →
      claim.session = k → ¬Blurred t.before claim now) ∧ Clear k h := by
  simp only [Clear, List.forall_mem_cons]

theorem clear_admitClaim {h : History Database StoreCall} :
    Clear claim.session (⟨db, .admitClaim claim signature now, db'⟩ :: h) ↔
      ¬Blurred db claim now ∧ Clear claim.session h := by
  rw [clear_cons]
  apply and_congr_left'
  constructor
  · intro hall
    exact hall claim signature now rfl rfl
  · intro hnot claim' signature' now' hlabel _
    cases hlabel
    exact hnot

theorem bounded_recordOf (hc : Consistent sha256 k (some row) (db.tickets k) (db.evidence k)) :
    Bounded (recordOf k row (db.tickets k)) := by
  have hd := Int64.toNat_toUInt64 (hc.deposit row rfl).le
  have hlt := row.depositedTotal.toInt_lt
  rcases ht : db.tickets k with _ | t
  · refine ⟨Nat.zero_le _, by simp only [recordOf]; omega, fun l hl => by cases hl⟩
  · rcases hc.last_allowed ht with ⟨e, he, hm⟩
    have hw := hc.within row rfl e (List.mem_of_getLast? he)
    have hn := hc.ticket_nonneg ht
    have hcum := Int64.toNat_toUInt64 hn.1
    have hnonce := Int64.toNat_toUInt64 hn.2
    have hmax := t.nonce.toInt_lt
    have hamount : t.cumulativeAmount = e.cumulativeAmount := congrArg Mark.cumulativeAmount hm
    refine ⟨?_, by simp only [recordOf]; omega, ?_⟩
    · rw [hamount] at hcum
      simp only [recordOf, Option.map_some, Option.getD_some, hamount]
      omega
    · intro l hl
      simp only [recordOf, Option.map_some, Option.some.injEq] at hl
      subst hl
      omega

/-- The replay of a session's stored entries. -/
def replayOf (db : Database) (k : Pubkey) (row : SessionRow) : Option ReplayMark :=
  replay k row.depositedTotal.toUInt64 ((db.evidence k).map EvidenceRow.entry)

/-- A run's effect on the replay of a session: the ticket while the run is clear,
nothing once it is not. -/
structure Replayed (k : Pubkey) (h : History Database StoreCall) (db : Database) : Prop where
  untracked : db.sessions k = none → Clear k h
  clear : ∀ row, db.sessions k = some row → Clear k h →
    replayOf db k row = some (markOf (recordOf k row (db.tickets k)))
  blurred : ∀ row, db.sessions k = some row → ¬Clear k h → replayOf db k row = none

/-- One more entry is judged after all the others. -/
theorem replay_concat {depositedTotal : UInt64} {entries : List EvidenceEntry}
    {e : EvidenceEntry} :
    replay k depositedTotal (entries ++ [e]) =
      (replay k depositedTotal entries).bind fun mark => replayStep k depositedTotal mark e := by
  rw [replay, List.foldlM_append]
  simp [replay]

/-- A call that admits nothing on the session leaves its ticket and its log, and
the terms of its row. -/
structure Untouched (db db' : Database) (k : Pubkey) : Prop where
  evidence : db'.evidence k = db.evidence k
  tickets : db'.tickets k = db.tickets k
  row : ∀ row, db.sessions k = some row →
    ∃ row', db'.sessions k = some row' ∧ row'.depositedTotal = row.depositedTotal

theorem Untouched.refl (db : Database) (k : Pubkey) : Untouched db db k :=
  ⟨rfl, rfl, fun row h => ⟨row, h, rfl⟩⟩

theorem untouched_setSession {row' : SessionRow} (hrow : db.sessions session = some row)
    (hd : row'.depositedTotal = row.depositedTotal) :
    Untouched db (db.setSession session row') k := by
  refine ⟨rfl, rfl, ?_⟩
  intro r hr
  rw [setSession_sessions]
  split_ifs with hk
  · subst hk
    rw [hrow, Option.some.injEq] at hr
    exact ⟨row', rfl, hr ▸ hd⟩
  · exact ⟨r, hr, rfl⟩

theorem untouched_of_wrote {call : StoreCall} (hw : Wrote sha256 db call db')
    (hcall : ∀ claim signature now, call = .admitClaim claim signature now → claim.session ≠ k) :
    Untouched db db' k := by
  cases hw with
  | unchanged => exact .refl db k
  | @opened record _ _ hnone =>
    refine ⟨rfl, rfl, ?_⟩
    intro row hrow
    rw [setSession_sessions]
    split_ifs with hk
    · rw [hk, hnone] at hrow
      cases hrow
    · exact ⟨row, hrow, rfl⟩
  | @refused claim signature now _ _ _ _ _ _ =>
    have hk := (hcall claim signature now rfl).symm
    refine ⟨?_, rfl, fun r hr => ⟨r, hr, rfl⟩⟩
    rw [pushEvidence_evidence, if_neg hk]
  | @admitted claim signature now _ _ _ _ _ _ _ =>
    have hk := (hcall claim signature now rfl).symm
    refine ⟨?_, ?_, fun r hr => ⟨r, hr, rfl⟩⟩
    · rw [setTicket_evidence, pushEvidence_evidence, if_neg hk]
    · rw [setTicket_tickets, if_neg hk]
      rfl
  | settled hrow => exact untouched_setSession hrow rfl
  | verified hrow => exact untouched_setSession hrow rfl

/-- A call that leaves the log and the ticket of the session, and is not a blurred
attempt on it, leaves its replay. -/
theorem Replayed.untouched {h : History Database StoreCall} {t : Transition Database StoreCall}
    (hr : Replayed k h db) (hI : Intact sha256 db) (hu : Untouched db db' k)
    (hclear : Clear k (t :: h) ↔ Clear k h) : Replayed k (t :: h) db' := by
  rcases hrow : db.sessions k with _ | row
  · have hc := hI k
    rw [hrow] at hc
    have hempty := hc.untracked rfl
    refine ⟨fun _ => hclear.mpr (hr.untracked hrow), ?_, ?_⟩
    · intro row' _ _
      rw [replayOf, hu.evidence, hu.tickets, hempty.1, hempty.2]
      rfl
    · intro row' _ hblurred
      exact absurd (hclear.mpr (hr.untracked hrow)) hblurred
  · rcases hu.row row hrow with ⟨row₁, hrow₁, hd⟩
    have hsame : ∀ row', db'.sessions k = some row' → replayOf db' k row' = replayOf db k row ∧
        markOf (recordOf k row' (db'.tickets k)) = markOf (recordOf k row (db.tickets k)) := by
      intro row' hrow'
      rw [hrow₁, Option.some.injEq] at hrow'
      subst hrow'
      rw [replayOf, replayOf, hu.evidence, hu.tickets, hd]
      exact ⟨rfl, rfl⟩
    refine ⟨?_, ?_, ?_⟩
    · intro hnone
      rw [hrow₁] at hnone
      cases hnone
    · intro row' hrow' hc
      rw [(hsame row' hrow').1, (hsame row' hrow').2]
      exact hr.clear row hrow (hclear.mp hc)
    · intro row' hrow' hb
      rw [(hsame row' hrow').1]
      exact hr.blurred row hrow fun hc => hb (hclear.mpr hc)

/-- An attempt that leaves one more entry, which is judged at the mark reached. -/
theorem Replayed.pushed {h : History Database StoreCall} {e : EvidenceRow}
    (hr : Replayed claim.session h db) (hrow : db.sessions claim.session = some row)
    (hrow' : db'.sessions claim.session = some row)
    (hlog : db'.evidence claim.session = db.evidence claim.session ++ [e])
    (hb : Blurred db claim now → replayStep claim.session row.depositedTotal.toUInt64
      (markOf (recordOf claim.session row (db.tickets claim.session))) e.entry = none)
    (hc : ¬Blurred db claim now → replayStep claim.session row.depositedTotal.toUInt64
      (markOf (recordOf claim.session row (db.tickets claim.session))) e.entry =
        some (markOf (recordOf claim.session row (db'.tickets claim.session)))) :
    Replayed claim.session (⟨db, .admitClaim claim signature now, db'⟩ :: h) db' := by
  have hreplay : replayOf db' claim.session row = (replayOf db claim.session row).bind
      fun mark => replayStep claim.session row.depositedTotal.toUInt64 mark e.entry := by
    rw [replayOf, hlog, List.map_append, List.map_singleton, replay_concat]
    rfl
  refine ⟨?_, ?_, ?_⟩
  · intro hnone
    rw [hrow'] at hnone
    cases hnone
  · intro row' hr' hclear
    rw [hrow', Option.some.injEq] at hr'
    subst hr'
    rw [clear_admitClaim] at hclear
    rw [hreplay, hr.clear row hrow hclear.2, Option.bind_some]
    exact hc hclear.1
  · intro row' hr' hblurred
    rw [hrow', Option.some.injEq] at hr'
    subst hr'
    rw [hreplay]
    by_cases hclear : Clear claim.session h
    · rw [hr.clear row hrow hclear, Option.bind_some]
      apply hb
      by_contra hnot
      exact hblurred (clear_admitClaim.mpr ⟨hnot, hclear⟩)
    · rw [hr.blurred row hrow hclear]
      rfl

/-- An attempt that changes nothing and is not blurred. -/
theorem Replayed.dropped {h : History Database StoreCall} (hr : Replayed claim.session h db)
    (hI : Intact sha256 db) (hnot : ¬Blurred db claim now) :
    Replayed claim.session (⟨db, .admitClaim claim signature now, db⟩ :: h) db := by
  apply hr.untouched hI (.refl db _)
  rw [clear_admitClaim]
  exact and_iff_right hnot

theorem blurred_iff (hI : Intact sha256 db) (hrow : db.sessions claim.session = some row) :
    Blurred db claim now ↔ (db.evidence claim.session).length < 2 ^ 63 ∧ row.settled = false ∧
      now ≤ sessionLimit row.expiresAt ∧
      Blurs (recordOf claim.session row (db.tickets claim.session)) claim := by
  unfold Blurred
  rw [getRecord_eq hI hrow]
  simp only [Except.ok.injEq, exists_eq_left']
  rfl

theorem entry_nextRow {d : Decision} :
    (nextRow sha256 db claim d signature).entry.cumulativeAmount =
        clampI64 claim.cumulativeAmount ∧
      (nextRow sha256 db claim d signature).entry.nonce = clampI64 claim.nonce ∧
      (nextRow sha256 db claim d signature).entry.decision = d.asStr :=
  ⟨clampI64_roundTrip _, clampI64_roundTrip _, rfl⟩

/-- An attempt whose decision was recorded. -/
theorem Replayed.recorded {h : History Database StoreCall} {d : Decision}
    (hr : Replayed claim.session h db) (hI : Intact sha256 db)
    (hrow : db.sessions claim.session = some row) (hopen : row.settled = false)
    (hroom : (db.evidence claim.session).length < 2 ^ 63)
    (hdec : decisionOf (evaluateClaim (recordOf claim.session row (db.tickets claim.session)) claim
      now) = some d)
    (hrec : d = .allowed → claim.nonce.toNat < 2 ^ 63)
    (hrow' : db'.sessions claim.session = some row)
    (hlog : db'.evidence claim.session =
      db.evidence claim.session ++ [nextRow sha256 db claim d signature])
    (hmark : markOf (recordOf claim.session row (db'.tickets claim.session)) =
      if d = .allowed then ⟨claim.cumulativeAmount, some claim.nonce⟩
      else markOf (recordOf claim.session row (db.tickets claim.session))) :
    Replayed claim.session (⟨db, .admitClaim claim signature now, db'⟩ :: h) db' := by
  have hentry := @entry_nextRow sha256 db claim signature d
  by_cases htime : now ≤ sessionLimit row.expiresAt
  · have hstep := @replayStep_entry (recordOf claim.session row (db.tickets claim.session)) claim
      now d _ hopen htime (bounded_recordOf (hI.tracked hrow)) hentry.1 hentry.2.1 hdec hentry.2.2
      hrec
    apply hr.pushed hrow hrow' hlog
    · intro hblurred
      exact hstep.1 ((blurred_iff hI hrow).mp hblurred).2.2.2
    · intro hnot
      rw [hmark]
      apply hstep.2
      intro hblurs
      exact hnot ((blurred_iff hI hrow).mpr ⟨hroom, hopen, htime, hblurs⟩)
  · have hlate := @decisionOf_late (recordOf claim.session row (db.tickets claim.session)) claim now
      hopen htime
    rw [hdec, Option.some.injEq] at hlate
    subst hlate
    apply hr.pushed hrow hrow' hlog
    · intro hblurred
      exact absurd ((blurred_iff hI hrow).mp hblurred).2.2.1 htime
    · intro _
      rw [hmark, replayStep, if_pos hentry.2.2, if_neg (by decide)]

/-- Every attempt on the session, by what `admit_claim` can do with it. -/
theorem Replayed.admit {h : History Database StoreCall} (hr : Replayed claim.session h db)
    (hI : Intact sha256 db) :
    Replayed claim.session (⟨db, .admitClaim claim signature now,
      (execute sha256 db (.admitClaim claim signature now)).2⟩ :: h)
      (execute sha256 db (.admitClaim claim signature now)).2 := by
  simp only [execute]
  rcases hrow : db.sessions claim.session with _ | row
  · rw [admitClaim_untracked hrow, commit]
    apply hr.dropped hI
    rintro ⟨-, record, hget, -⟩
    obtain ⟨row, -, hload⟩ := getRecord_loaded hget
    rw [hload.found] at hrow
    cases hrow
  · have hc := hI.tracked hrow
    have hb := bounded_recordOf hc
    have hcases := @admit_cases sha256 db claim signature now row hrow hc
    revert hcases
    generalize admitClaim sha256 db claim signature now = x
    intro hcases
    cases hcases with
    | settled hs _ =>
      apply hr.dropped hI
      rw [blurred_iff hI hrow]
      rintro ⟨-, hopen, -⟩
      have hs' : row.settled = true := hs
      rw [hopen] at hs'
      cases hs'
    | @refused r d hopen he hd hroom =>
      obtain ⟨d', hd', hne⟩ := decisionOf_refused hopen he
      rw [hd, Option.some.injEq] at hd'
      subst hd'
      rw [← he] at hd
      refine hr.recorded hI hrow hopen hroom hd (fun h => absurd h hne) hrow ?_ ?_
      · exact pushEvidence_evidence.trans (if_pos rfl)
      · rw [if_neg hne]
        rfl
    | accepted he hroom hnonce =>
      have hacc := evaluateClaim_eq_ok.mp he
      have hd : decisionOf (evaluateClaim (recordOf claim.session row
          (db.tickets claim.session)) claim now) = some .allowed := by
        rw [he]
        rfl
      refine hr.recorded hI hrow hacc.unsettled hroom hd (fun _ => hnonce) hrow ?_ ?_
      · exact pushEvidence_evidence.trans (if_pos rfl)
      · have hcum := clampI64_roundTrip claim.cumulativeAmount
        have hn := clampI64_roundTrip claim.nonce
        rw [clampI64_of_lt (accepted_within hc hacc).2] at hcum
        rw [clampI64_of_lt hnonce] at hn
        rw [commit, setTicket_tickets, if_pos rfl, if_pos rfl]
        simp only [markOf, recordOf, ticketOf, Option.map_some, Option.getD_some, hcum, hn]
    | full _ hfull =>
      apply hr.dropped hI
      rw [blurred_iff hI hrow]
      rintro ⟨hroom, -⟩
      omega
    | nonceTooLarge he _ =>
      apply hr.dropped hI
      rw [blurred_iff hI hrow]
      rintro ⟨-, -, -, hblurs⟩
      exact not_blurs_of_accepted hb (evaluateClaim_eq_ok.mp he) hblurs

theorem replayed_step {h : History Database StoreCall} {call : StoreCall}
    (hr : Replayed k h db) (hI : Intact sha256 db) (hs : StoreStep sha256 db call db') :
    Replayed k (⟨db, call, db'⟩ :: h) db' := by
  subst hs
  by_cases hcall : ∃ claim signature now, call = .admitClaim claim signature now ∧
      claim.session = k
  · obtain ⟨claim, signature, now, rfl, rfl⟩ := hcall
    exact hr.admit hI
  · have hother : ∀ claim signature now, call = .admitClaim claim signature now →
        claim.session ≠ k := by
      intro claim signature now hc hk
      exact hcall ⟨claim, signature, now, hc, hk⟩
    apply hr.untouched hI (untouched_of_wrote (execute_wrote hI _) hother)
    rw [clear_cons]
    apply and_iff_right
    intro claim signature now hc hk
    exact absurd hk (hother claim signature now hc)

theorem replayed_run {h : History Database StoreCall}
    (hr : Run (StoreStep sha256) Database.empty h db) : Replayed k h db := by
  induction hr with
  | start =>
    refine ⟨fun _ t ht => absurd ht List.not_mem_nil, ?_, ?_⟩
    · intro row hrow
      cases hrow
    · intro row hrow
      cases hrow
  | step hr hs ih =>
    have hI : Intact sha256 _ := hr.invariant_all (fun _ _ _ h hs => intact_step h hs) intact_empty
    exact replayed_step ih hI hs

end Steps

/-- In every run of the store, the stored entries of a session replay to the stored
decisions exactly when no attempt on it was blurred by the clamp. -/
theorem replay_reproduces_iff {sha256 : List UInt8 → Hash} {h : History Database StoreCall}
    {db : Database} {k : Pubkey} {record : SessionRecord} {entries : List EvidenceEntry}
    (hr : Run (StoreStep sha256) Database.empty h db) (hget : getRecord db k = .ok record)
    (hload : loadEvidenceChain db k = .ok entries) :
    (∃ mark, replay k record.depositedTotal entries = some mark) ↔ Clear k h := by
  have hI : Intact sha256 db := hr.invariant_all (fun _ _ _ h hs => intact_step h hs) intact_empty
  have hreplayed := @replayed_run sha256 db k h hr
  obtain ⟨row, -, hl⟩ := getRecord_loaded hget
  rw [getRecord_eq hI hl.found, Except.ok.injEq] at hget
  rw [loadEvidenceChain_eq (hI k), Except.ok.injEq] at hload
  subst hget hload
  constructor
  · intro hmark
    by_contra hblurred
    obtain ⟨mark, hmark⟩ := hmark
    have hnone := hreplayed.blurred row hl.found hblurred
    rw [replayOf] at hnone
    exact absurd (hnone.symm.trans hmark) (by simp)
  · intro hclear
    exact ⟨_, hreplayed.clear row hl.found hclear⟩

/-- A claim, its replay, a second claim, the settlement and a late claim. -/
theorem replay_reproduces_till :
    replay Ledger.session 1000 Ledger.entries = some ⟨250, some 2⟩ ∧
      Clear Ledger.session (Till.play Ledger.sha256 Till.calls).1 := by
  have hmark : replay Ledger.session 1000 Ledger.entries = some ⟨250, some 2⟩ := by decide +kernel
  have hget : getRecord (Till.play Ledger.sha256 Till.calls).2 Ledger.session =
      .ok { Till.record with
        cumulativeAccepted := 250
        lastNonce := some 2
        highestClaim := some ⟨⟨Ledger.session, 250, 2, 4000⟩, Till.signature⟩
        isSettled := true } := by
    decide +kernel
  have hload : loadEvidenceChain (Till.play Ledger.sha256 Till.calls).2 Ledger.session =
      .ok Ledger.entries := by
    decide +kernel
  exact ⟨hmark, (replay_reproduces_iff (Till.play_run Ledger.sha256 Till.calls) hget hload).mp
    ⟨_, hmark⟩⟩

/-! ### A deposit of `i64::MAX` -/
namespace Vault

def record : SessionRecord :=
  .new Ledger.session sampleAgent (.filled 3) (.filled 9) (UInt64.ofNat (2 ^ 63 - 1)) 5000

/-- One claim for one unit more than the deposit. -/
def calls : List StoreCall :=
  [Till.attempt (UInt64.ofNat (2 ^ 63)) 1, .openSession record]

def store : Database := (Till.play Ledger.sha256 calls).2

end Vault

/-- The claim is refused for exceeding the deposit and stored as `i64::MAX`, which a
replay allows. -/
theorem replay_allows_refused_claim :
    Run (StoreStep Ledger.sha256) Database.empty (Till.play Ledger.sha256 Vault.calls).1
        Vault.store ∧
      getRecord Vault.store Ledger.session = .ok Vault.record ∧
      (Vault.store.evidence Ledger.session).map
          (fun e => (e.cumulativeAmount, e.nonce, e.decision)) =
        [(Int64.maxValue, 1, .exceedsDeposit)] ∧
      decisionOf (evaluateClaim
          (replayRecord Ledger.session Vault.record.depositedTotal .empty)
          ⟨Ledger.session, Int64.maxValue.toUInt64, 1, 0⟩ 0) = some .allowed ∧
      replay Ledger.session Vault.record.depositedTotal
        ((Vault.store.evidence Ledger.session).map EvidenceRow.entry) = none := by
  refine ⟨Till.play_run Ledger.sha256 Vault.calls, ?_, ?_, ?_, ?_⟩
  · decide +kernel
  · decide +kernel
  · decide +kernel
  · decide +kernel

end AgentPay.EvidenceReplay
