import AgentPay.MeteredRequests
import AgentPay.PlanningClaims
import AgentPay.ResumedClients

/-!
# The console's badge of a session

`sessionStatus` and `isStrandedEscrow` of `session-status.ts`, and the lists of the
settlement page. The badge is computed by the reader from four fields of the listing and a
clock of its own; it repeats rules that `evaluate_claim` and the program have in their own
words. What it says is compared with both, in every run of the gateway and the chain and at
every later time. An expiry is a JSON number, hence a double; the comparison is for expiries
that a double holds exactly. Reader, gateway and chain read one clock.

The gateway is not told of refunds. A refunded session keeps its badge.
-/
namespace AgentPay.SessionBadges
open SolanaRuntime EscrowState EscrowProgram EscrowEffects EscrowRefunds
open GatewayClaims SessionStore SettlementRequests SettlementAgreement PlanningClaims
open ReconciledSessions PolicyRules Fallible Runs
open PaidRequests (claimDenial)
open MeteredRequests (asStr)
open ControlRequests (SessionSummaryView saturatingSub)
open DecimalStrings (natToString stringToBigInt)

/-! ### The badge -/

/-- The double nearest to a whole number, ties to even. -/
def number (n : ℤ) : ℤ :=
  if n.natAbs ≤ 2 ^ 53 then n else
    let unit := 2 ^ (n.natAbs.log2 - 52)
    let q := n.natAbs / unit
    let r := n.natAbs % unit
    let rounded := if unit < 2 * r ∨ 2 * r = unit ∧ q % 2 = 1 then q + 1 else q
    n.sign * (rounded * unit : ℕ)

inductive SessionStatus where
  | settled
  | expired
  | expiring
  | active
deriving DecidableEq

inductive Tone where
  | info
  | allowed
  | denied
  | neutral
deriving DecidableEq

structure StatusInfo where
  status : SessionStatus
  label : String
  wouldAccept : Bool
  reasonIfRefused : Option String
  tone : Tone
deriving DecidableEq

/-- The fields of a listed session that the console judges it by. Its other fields are shown in
tables and judged by nothing. -/
structure SessionView where
  isSettled : Bool
  expiresAt : ℤ
  remaining : Text
  chainVerified : Bool
deriving DecidableEq

def viewOf (v : SessionSummaryView) : SessionView where
  isSettled := v.summary.isSettled
  expiresAt := number v.summary.expiresAt.toInt
  remaining := natToString v.remaining.toNat
  chainVerified := v.summary.chainVerified

def clockSkewToleranceSecs : ℤ := 30

def expiringSoonSecs : ℤ := 300

def sessionStatus (s : SessionView) (nowSecs : ℤ) : StatusInfo :=
  if s.isSettled then ⟨.settled, "Settled", false, some "ERR_SESSION_SETTLED", .info⟩
  else if number (s.expiresAt + clockSkewToleranceSecs) < nowSecs then
    ⟨.expired, "Expired", false, some "ERR_SESSION_EXPIRED", .denied⟩
  else if number (s.expiresAt - nowSecs) < expiringSoonSecs then
    ⟨.expiring, "Expiring", true, none, .denied⟩
  else ⟨.active, "Active", true, none, .allowed⟩

/-- Expired, unsettled, read from the chain, and something left. -/
def isStrandedEscrow (s : SessionView) (nowSecs : ℤ) : Bool :=
  s.chainVerified && decide ((sessionStatus s nowSecs).status = .expired) &&
    match stringToBigInt s.remaining with
    | some n => decide (0 < n)
    | none => false

/-- In its window. -/
def open? (s : SessionView) (nowSecs : ℤ) : Bool :=
  decide ((sessionStatus s nowSecs).status = .active) ||
    decide ((sessionStatus s nowSecs).status = .expiring)

def settleable (s : SessionView) (nowSecs : ℤ) : Bool := s.chainVerified && open? s nowSecs

def viewOfRecord (r : SessionRecord) : SessionView where
  isSettled := r.isSettled
  expiresAt := number r.expiresAt.toInt
  remaining := natToString (saturatingSub r.depositedTotal r.cumulativeAccepted).toNat
  chainVerified := r.chainVerified

/-- A double holds the expiry, with the tolerance too. -/
def Exact (expiresAt : Int64) : Prop :=
  -2 ^ 53 ≤ expiresAt.toInt ∧ expiresAt.toInt + 30 ≤ 2 ^ 53

/-- The badge against `evaluate_claim`: it refuses with the code every claim is refused with,
and where it accepts only the amounts and the nonce of a claim decide. -/
structure Truthful (record : SessionRecord) (now : Int64) (badge : StatusInfo) : Prop where
  refuses : badge.wouldAccept = false → ∃ r, badge.reasonIfRefused = some (asStr (claimDenial r)) ∧
    ∀ claim, evaluateClaim record claim now = .error r
  accepts : badge.wouldAccept = true → badge.reasonIfRefused = none ∧
    ∀ claim r, evaluateClaim record claim now = .error r →
      r = .notMonotonic ∨ r = .nonceNotMonotonic ∨ r = .exceedsDeposit
  room : badge.wouldAccept = true → ((∃ claim acc, evaluateClaim record claim now = .ok acc) ↔
    record.cumulativeAccepted < record.depositedTotal ∧
      ∀ n, record.lastNonce = some n → n.toNat + 1 < 2 ^ 64)

/-- What the page says of the escrow on chain. A refunded session is shown as before, so what
is stranded can be had exactly where something is left. That part is for a mint that charges no
fee and still exists: a transfer that is charged one fails the program's own check. -/
structure EscrowShown (cfg : Config) (g : Desk cfg) (record : SessionRecord) (s : Session)
    (key : Pubkey) : Prop where
  settles : settleable (viewOfRecord record) g.shared.clock.toInt = true → ∀ args,
    settleChecks s g.shared.clock args = .ok () ↔
      (args.claimExpiresAt.toInt + 30 < 2 ^ 63 ∧
        g.shared.clock.toInt ≤ args.claimExpiresAt.toInt + 30) ∧
      s.cumulativeSettled.toNat < args.cumulativeAmount.toNat ∧
      args.cumulativeAmount.toNat ≤ s.depositedTotal.toNat
  kept : open? (viewOfRecord record) g.shared.clock.toInt = true → ∀ a r, a.session = key →
    refundSession cfg.rt g.shared.ledger g.shared.clock a = .ok r →
    a.caller = s.agent ∧ s.isSettled = true
  lapsed : (sessionStatus (viewOfRecord record) g.shared.clock.toInt).status = .expired →
    ∀ h' g', Run (DeskStep cfg) g h' g' → ∀ sysvar a args r, a.session = key →
      settleSession cfg.rt g'.shared.ledger g'.shared.clock sysvar a args ≠ .ok r
  stranded : isStrandedEscrow (viewOfRecord record) g.shared.clock.toInt = true →
    (∀ amount, cfg.rt.fee s.mint amount = 0) → MintStands g.shared.ledger s →
    (∀ a, a.session = key → RefundReady cfg.rt g.shared.ledger a s →
      ((∃ r, refundSession cfg.rt g.shared.ledger g.shared.clock a = .ok r) ↔
        0 < Session.remaining s)) ∧
    (s.refundedTotal = 0 → s.cumulativeSettled.toNat ≤ record.cumulativeAccepted.toNat →
      ∃ n : ℕ, stringToBigInt (viewOfRecord record).remaining = some (n : ℤ) ∧ 0 < n ∧
        n ≤ Session.remaining s)

/-- What holds of a session the console shows. -/
structure Judged (cfg : Config) (g : Desk cfg) (record : SessionRecord) (key : Pubkey) : Prop where
  now : Truthful record g.shared.clock
    (sessionStatus (viewOfRecord record) g.shared.clock.toInt)
  forever : (sessionStatus (viewOfRecord record) g.shared.clock.toInt).wouldAccept = false →
    ∀ h' g', Run (DeskStep cfg) g h' g' → ∀ claim signature db outcome, claim.session = key →
      admitClaim cfg.rt.sha256 g'.shared.db claim signature g'.shared.clock = .ok (db, outcome) →
      ∃ r, outcome = .error r
  escrow : record.chainVerified = true →
    ∃ s, sessionAt cfg.rt g.shared.ledger key = some s ∧ EscrowShown cfg g record s key

/-- What the listing shows of a session is what the console sees of its record. -/
theorem viewOf_listed {cfg : PaidRequests.Config} {s : Workspaces.Plane}
    {e : Workspaces.SessionEntry} (hi : StoreRuns.Intact cfg.sha256 s.database)
    (he : e ∈ s.sessions.rows) :
    ∃ summary record, Workspaces.summaryFromRow s e = .ok summary ∧
      getRecord s.database e.session = .ok record ∧
      viewOf ⟨summary, saturatingSub summary.depositedTotal summary.cumulativeAccepted⟩ =
        viewOfRecord record :=
  ⟨_, _, ResumedClients.summaryFromRow_eq hi he, ResumedClients.getRecord_entry hi he, rfl⟩

/-! ### The badge of a record -/

section Badge
variable {record : SessionRecord} {now : Int64}

theorem number_of_exact {n : ℤ} (h : n.natAbs ≤ 2 ^ 53) : number n = n := if_pos h

theorem number_expiry (h : Exact record.expiresAt) :
    number ((viewOfRecord record).expiresAt + clockSkewToleranceSecs) =
      record.expiresAt.toInt + 30 := by
  have hl := h.1
  have hu := h.2
  have hexpires : (viewOfRecord record).expiresAt = record.expiresAt.toInt :=
    number_of_exact (by omega)
  rw [hexpires, clockSkewToleranceSecs, number_of_exact (by omega)]

theorem sessionStatus_cases (h : Exact record.expiresAt) :
    (record.isSettled = true ∧ sessionStatus (viewOfRecord record) now.toInt =
      ⟨.settled, "Settled", false, some "ERR_SESSION_SETTLED", .info⟩) ∨
    (record.isSettled = false ∧ record.expiresAt.toInt + 30 < now.toInt ∧
      sessionStatus (viewOfRecord record) now.toInt =
        ⟨.expired, "Expired", false, some "ERR_SESSION_EXPIRED", .denied⟩) ∨
    (record.isSettled = false ∧ now.toInt ≤ record.expiresAt.toInt + 30 ∧
      ((sessionStatus (viewOfRecord record) now.toInt).status = .expiring ∨
        (sessionStatus (viewOfRecord record) now.toInt).status = .active) ∧
      (sessionStatus (viewOfRecord record) now.toInt).wouldAccept = true ∧
      (sessionStatus (viewOfRecord record) now.toInt).reasonIfRefused = none) := by
  have hset : (viewOfRecord record).isSettled = record.isSettled := rfl
  unfold sessionStatus
  rw [number_expiry h, hset]
  rcases hs : record.isSettled with _ | _
  · by_cases hlate : record.expiresAt.toInt + 30 < now.toInt
    · exact .inr (.inl ⟨rfl, hlate, by rw [if_pos hlate]; rfl⟩)
    · refine .inr (.inr ⟨rfl, by omega, ?_⟩)
      rw [if_neg hlate, if_neg Bool.false_ne_true]
      split_ifs
      · exact ⟨.inl rfl, rfl, rfl⟩
      · exact ⟨.inr rfl, rfl, rfl⟩
  · exact .inl ⟨rfl, rfl⟩

theorem le_sessionLimit (h : Exact record.expiresAt) :
    now ≤ sessionLimit record.expiresAt ↔ now.toInt ≤ record.expiresAt.toInt + 30 := by
  have hu := h.2
  rw [le_sessionLimit_iff]
  omega

/-- A claim of one more than the mark, with the next nonce. -/
theorem next_claim (hs : record.isSettled = false) (htime : now ≤ sessionLimit record.expiresAt) :
    (∃ claim acc, evaluateClaim record claim now = .ok acc) ↔
      record.cumulativeAccepted < record.depositedTotal ∧
        ∀ n, record.lastNonce = some n → n.toNat + 1 < 2 ^ 64 := by
  constructor
  · rintro ⟨claim, acc, hok⟩
    have hacc := evaluateClaim_eq_ok.mp hok
    refine ⟨?_, fun n hlast => ?_⟩
    · rw [UInt64.lt_iff_toNat_lt]
      exact hacc.above.trans_le hacc.within
    · have hnonce := hacc.nonce
      rw [hlast, nonceAdvances, UInt64.lt_iff_toNat_lt] at hnonce
      have hlt := claim.nonce.toNat_lt
      omega
  · rintro ⟨hroom, hlast⟩
    obtain ⟨nonce, hnonce⟩ : ∃ nonce, nonceAdvances record.lastNonce nonce := by
      rcases hn : record.lastNonce with _ | l
      · exact ⟨0, trivial⟩
      · obtain ⟨m, hm⟩ := UInt64.exists_toNat_eq (hlast l hn)
        refine ⟨m, ?_⟩
        rw [nonceAdvances, UInt64.lt_iff_toNat_lt]
        omega
    rw [UInt64.lt_iff_toNat_lt] at hroom
    have hdelta : record.depositedTotal.toNat - record.cumulativeAccepted.toNat +
        record.cumulativeAccepted.toNat = record.depositedTotal.toNat := by omega
    have hlt := record.depositedTotal.toNat_lt
    obtain ⟨d, hd⟩ := UInt64.exists_toNat_eq
      (n := record.depositedTotal.toNat - record.cumulativeAccepted.toNat) (by omega)
    refine ⟨⟨record.session, record.depositedTotal, nonce, record.expiresAt⟩,
      ⟨record.depositedTotal, record.cumulativeAccepted, d, nonce⟩, evaluateClaim_eq_ok.mpr ?_⟩
    exact ⟨hs, htime, hroom, hnonce, le_rfl, by rw [hd]; exact hdelta, rfl⟩

/-- A badge that promises nothing is truthful with the one refusal it names. -/
theorem truthful_of_refuses {badge : StatusInfo} (r : ClaimRejection)
    (hno : badge.wouldAccept = false)
    (hreason : badge.reasonIfRefused = some (asStr (claimDenial r)))
    (hall : ∀ claim, evaluateClaim record claim now = .error r) :
    Truthful record now badge := by
  have hnever : ¬badge.wouldAccept = true := by simp [hno]
  exact ⟨fun _ => ⟨r, hreason, hall⟩, fun hyes => (hnever hyes).elim,
    fun hyes => (hnever hyes).elim⟩

theorem badge_truthful (h : Exact record.expiresAt) :
    Truthful record now (sessionStatus (viewOfRecord record) now.toInt) := by
  rcases @sessionStatus_cases record now h with ⟨hs, hb⟩ | ⟨hs, hlate, hb⟩ | ⟨hs, htime, -, ha, hn⟩
  · rw [hb]
    refine truthful_of_refuses .sessionSettled rfl rfl fun claim => ?_
    have hflag : ¬record.isSettled = false := by simp [hs]
    rw [evaluateClaim, require_bind_of_not hflag]
  · rw [hb]
    have hover : ¬now ≤ sessionLimit record.expiresAt := by
      rw [le_sessionLimit h]
      omega
    refine truthful_of_refuses .sessionExpired rfl rfl fun claim => ?_
    rw [evaluateClaim, require_bind_of hs, require_bind_of_not hover]
  · have hin := (le_sessionLimit h).mpr htime
    refine ⟨fun hno => ?_, fun _ => ⟨hn, fun claim r hr => ?_⟩, fun _ => next_claim hs hin⟩
    · rw [ha] at hno
      cases hno
    · rw [evaluateClaim, require_bind_of hs, require_bind_of hin] at hr
      simp only [bind_eq_error, require_eq_error, okOr_eq_error, pure_eq_error] at hr
      grind

end Badge

/-! ### The escrow behind it -/

section Escrow
variable {cfg : Config} {g₀ g : Desk cfg} {key : Pubkey} {record : SessionRecord} {s : Session}

theorem open?_iff (h : Exact record.expiresAt) {now : Int64} :
    open? (viewOfRecord record) now.toInt = true ↔
      record.isSettled = false ∧ now.toInt ≤ record.expiresAt.toInt + 30 := by
  unfold open?
  rcases @sessionStatus_cases record now h with ⟨hs, hb⟩ | ⟨hs, hlate, hb⟩ | ⟨hs, htime, hb, -⟩
  · simp [hb, hs]
  · simp [hb, hlate]
  · rcases hb with hb | hb
    · simp [hb, hs, htime]
    · simp [hb, hs, htime]

theorem expired_iff (h : Exact record.expiresAt) {now : Int64} :
    (sessionStatus (viewOfRecord record) now.toInt).status = .expired ↔
      record.isSettled = false ∧ record.expiresAt.toInt + 30 < now.toInt := by
  rcases @sessionStatus_cases record now h with ⟨hs, hb⟩ | ⟨hs, hlate, hb⟩ | ⟨hs, htime, hb, -⟩
  · simp [hb, hs]
  · simp [hb, hs, hlate]
  · rcases hb with hb | hb
    · simp [hb, htime]
    · simp [hb, htime]

/-- Once the badge refuses, no claim is accepted at any later time. -/
theorem refused_forever (h : Exact record.expiresAt)
    (hget : getRecord g.shared.db key = .ok record)
    (hno : (sessionStatus (viewOfRecord record) g.shared.clock.toInt).wouldAccept = false)
    {h' : History (Desk cfg) (DeskLabel cfg)} {g' : Desk cfg} (hr : Run (DeskStep cfg) g h' g')
    {claim : Claim} {signature : Signature} {db : Database}
    {outcome : Except ClaimRejection ClaimAccepted} (hkey : claim.session = key)
    (hok : admitClaim cfg.rt.sha256 g'.shared.db claim signature g'.shared.clock =
      .ok (db, outcome)) : ∃ r, outcome = .error r := by
  rcases getRecord_loaded hget with ⟨row, -, hload⟩
  rcases (grows_run hr).rows key row hload.found with ⟨row', hrow', hev⟩
  have hexpires : row'.expiresAt = record.expiresAt := by rw [hev.terms, hload.expires]
  have hclock := clock_run hr
  cases admitClaim_effect hok with
  | @accepted acc found e t ha =>
    have hfound := ha.found
    rw [hkey, hrow'] at hfound
    cases hfound
    have htime := ha.inTime
    rw [hexpires, le_sessionLimit h] at htime
    rcases @sessionStatus_cases record g.shared.clock h with
      ⟨hs, -⟩ | ⟨-, hlate, -⟩ | ⟨-, -, -, hb, -⟩
    · have hflag := hev.settled (hload.settled ▸ hs)
      rw [ha.unsettled] at hflag
      cases hflag
    · omega
    · rw [hb] at hno
      cases hno
  | refused _ _ _ => exact ⟨_, rfl⟩
  | unchanged => exact ⟨_, rfl⟩

/-- Past the deadline of its terms a session is not settled, whatever happens. -/
theorem no_settlement {c : ClaimedSession} {h' : History (Desk cfg) (DeskLabel cfg)} {g' : Desk cfg}
    (hchain : OnChain cfg.rt g.shared.ledger key c)
    (hlate : c.expiresAt.toInt + 30 < g.shared.clock.toInt) (hr : Run (DeskStep cfg) g h' g')
    {sysvar : ClaimMessage.InstructionsSysvar} {a : SettleAccounts} {args : SettleArgs}
    {r : EscrowLedger × EscrowState.Event} (hkey : a.session = key) :
    settleSession cfg.rt g'.shared.ledger g'.shared.clock sysvar a args ≠ .ok r := by
  intro hok
  rcases onChain_run hr hchain with ⟨x, hx, hterms⟩
  rw [← hkey] at hx
  rcases settled_of_ok hok hx with ⟨delta, he⟩
  have htime := (settleChecks_eq_ok.mp he.checks).1.2
  have hexpires : x.expiresAt = c.expiresAt := by rw [← hterms]; rfl
  have hclock := clock_run hr
  rw [hexpires] at htime
  omega

theorem remaining_read (record : SessionRecord) :
    stringToBigInt (viewOfRecord record).remaining =
      some ((record.depositedTotal.toNat - record.cumulativeAccepted.toNat : ℕ) : ℤ) := by
  rw [viewOfRecord, DecimalStrings.stringToBigInt_natToString,
    ControlRequests.toNat_saturatingSub]

theorem stranded_parts (h : isStrandedEscrow (viewOfRecord record) g.shared.clock.toInt = true) :
    (sessionStatus (viewOfRecord record) g.shared.clock.toInt).status = .expired ∧
      0 < record.depositedTotal.toNat - record.cumulativeAccepted.toNat := by
  simp only [isStrandedEscrow, remaining_read, Bool.and_eq_true, decide_eq_true_eq] at h
  exact ⟨h.1.2, by omega⟩

/-- After the deadline a refund can be had exactly where something is left. -/
theorem refund_iff_left {h : History (Desk cfg) (DeskLabel cfg)} {a : RefundAccounts}
    (hr : Run (DeskStep cfg) g₀ h g) (h₀ : Initial cfg g₀)
    (hs : sessionAt cfg.rt g.shared.ledger key = some s)
    (hfee : ∀ amount, cfg.rt.fee s.mint amount = 0) (hmint : MintStands g.shared.ledger s)
    (hpast : s.expiresAt.toInt + 30 < g.shared.clock.toInt) (hkey : a.session = key)
    (hready : RefundReady cfg.rt g.shared.ledger a s) :
    (∃ r, refundSession cfg.rt g.shared.ledger g.shared.clock a = .ok r) ↔
      0 < Session.remaining s := by
  constructor
  · rintro ⟨r, hok⟩
    rcases refunded_of_ok hok hready.loaded with ⟨remaining, total, he⟩
    have hrest := refundRemaining_eq_ok.mp he.rest
    unfold Session.remaining
    omega
  · intro hleft
    subst hkey
    rcases ledger_run hr with ⟨hist, hrun⟩
    have hgenesis := EscrowInvariant.sound_genesis h₀.ledger
    have hsound := (EscrowInvariant.sound_run hgenesis hrun).session a.session s hs
    exact refund_succeeds hready hsound hmint hleft
      (remaining_le_balance hrun h₀.ledger hs hfee) hpast

theorem escrow_shown {h : History (Desk cfg) (DeskLabel cfg)} (hr : Run (DeskStep cfg) g₀ h g)
    (h₀ : Initial cfg g₀) (hexact : Exact record.expiresAt)
    (hs : sessionAt cfg.rt g.shared.ledger key = some s) (hterms : termsOf s = claimedOf record) :
    EscrowShown cfg g record s key := by
  have hexpires : s.expiresAt = record.expiresAt := congrArg ClaimedSession.expiresAt hterms
  have hdeposit : s.depositedTotal = record.depositedTotal :=
    congrArg ClaimedSession.depositedTotal hterms
  have hu := hexact.2
  constructor
  case settles =>
    intro hshown args
    have hopen := (open?_iff hexact).mp (Bool.and_eq_true_iff.mp hshown).2
    rw [settleChecks_eq_ok, hexpires]
    refine ⟨And.right, fun hrest => ⟨⟨by omega, hopen.2⟩, hrest⟩⟩
  case kept =>
    intro hshown a r hkey hok
    have hopen := (open?_iff hexact).mp hshown
    rw [← hkey] at hs
    rcases refundSession_eq_ok.mp hok with
      ⟨s', limit, remaining, L₁, total, hvalid, hlimit, hgate, -⟩
    obtain rfl : s' = s := Option.some.inj (hvalid.loaded.symm.trans hs)
    rw [deadline_eq_ok, hexpires] at hlimit
    rcases hgate with hpast | hagent
    · rw [Int64.lt_iff_toInt_lt] at hpast
      omega
    · exact hagent
  case lapsed =>
    intro hshown h' g' hr' sysvar a args r hkey
    have hlate := (expired_iff hexact).mp hshown
    exact no_settlement ⟨s, hs, rfl⟩ (by rw [termsOf, hexpires]; exact hlate.2) hr' hkey
  case stranded =>
    intro hshown hfee hmint
    obtain ⟨hstatus, hpos⟩ := stranded_parts hshown
    have hlate := (expired_iff hexact).mp hstatus
    have hpast : s.expiresAt.toInt + 30 < g.shared.clock.toInt := by
      rw [hexpires]
      exact hlate.2
    refine ⟨fun a hkey hready => refund_iff_left hr h₀ hs hfee hmint hpast hkey hready,
      fun hzero hle => ⟨_, remaining_read record, hpos, ?_⟩⟩
    rw [Session.remaining, hzero, hdeposit]
    have hnone : (0 : UInt64).toNat = 0 := rfl
    omega

end Escrow

/-- In every run of the gateway and the chain, the badge the console computes for a session
agrees with `evaluate_claim` now and for good, and what the console says of a verified
session's escrow agrees with the program. The expiry is one that a double holds exactly, and
the reader's clock shows what the gateway's and the chain's do. -/
theorem badges_agree {cfg : Config} {g₀ g : Desk cfg} {h : History (Desk cfg) (DeskLabel cfg)}
    {key : Pubkey} {record : SessionRecord} (hr : Run (DeskStep cfg) g₀ h g)
    (h₀ : Initial cfg g₀) (hget : getRecord g.shared.db key = .ok record)
    (hexact : Exact record.expiresAt) : Judged cfg g record key := by
  refine ⟨badge_truthful hexact, ?_, fun hverified => ?_⟩
  · intro hno h' g' hr' claim signature db outcome hkey hok
    exact refused_forever hexact hget hno hr' hkey hok
  · rcases compared_record_agrees hr h₀ hget (.inr hverified) with ⟨s, hs, hterms⟩
    exact ⟨s, hs, escrow_shown hr h₀ hexact hs hterms⟩

namespace Office
export ReconciledSessions.Office (session config start start_initial record)

/-- The session long after its deadline, with 100 of 1000 claimed and nothing settled. -/
def lapsed : History (Desk config) (DeskLabel config) × Desk config := playDesk config start
  (.outside (.tick 6000) :: SettlementAgreement.Office.opening)

end Office

theorem badges_agree_lapsed :
    Judged Office.config Office.lapsed.2 Office.record Office.session ∧
      Office.lapsed.2.shared.clock = 6000 ∧
      (sessionStatus (viewOfRecord Office.record) 6000).status = .expired ∧
      isStrandedEscrow (viewOfRecord Office.record) 6000 = true := by
  have hrun : Run (DeskStep Office.config) Office.start Office.lapsed.1 Office.lapsed.2 :=
    playDesk_run _ _ _
  have hget : getRecord Office.lapsed.2.shared.db Office.session = .ok Office.record := by
    decide +kernel
  have hexact : Exact Office.record.expiresAt := by
    unfold Exact
    decide
  have hstatus : (sessionStatus (viewOfRecord Office.record) 6000).status = .expired := by
    have hclock : (6000 : Int64).toInt = 6000 := rfl
    rw [← hclock, expired_iff hexact]
    decide
  refine ⟨badges_agree hrun Office.start_initial hget hexact, by decide +kernel, hstatus, ?_⟩
  simp only [isStrandedEscrow, hstatus, remaining_read]
  decide

end AgentPay.SessionBadges
