import AgentPay.AccountLayouts
import AgentPay.DecimalStrings
import AgentPay.MerkleProofs

/-!
# Reading a settlement back off the chain

`on_chain_settlement` of `routes.rs` fetches the session's account to learn which program
owns it, and then the settlement record at the address that program derives. A failure of
the second fetch is refused. A failure of the first is not told apart from a session that
is not on chain: the handler goes on under its own program, and for a session of the legacy
program it then looks where no record can be and reports the session as unsettled.

The node and the derivation of addresses are parameters. A node that answers answers with
what is on chain. Keys are answered as values.
-/
namespace AgentPay.SettlementReads
open SolanaRuntime SessionStore AccountLayouts Fallible
open SessionLayouts (SessionVerificationError Fetched sessionAccountLenV1)
open PolicyRules (Text)
open DecimalStrings (natToString)
open MerkleProofs (hex32)

/-- Every account on chain: its owner and its data. -/
abbrev Chain := Pubkey → Option (Pubkey × List UInt8)

/-- What `get_account` answers: the account, or the text of an error. -/
abbrev RpcAnswer := Except Text (Pubkey × List UInt8)

def accountNotFound : Text := "AccountNotFound".toList
def couldNotFindAccount : Text := "could not find account".toList

/-- The errors that are read as a missing account. -/
def saysMissing (message : Text) : Bool :=
  decide (accountNotFound <:+: message) || decide (couldNotFindAccount <:+: message)

/-- `RpcSessionFetcher::fetch`. The node is a parameter and may answer anything; an error is an
absent account only if its message says so, and any other error is a failure. -/
def fetch : RpcAnswer → Fetched
  | .ok account => some (some account)
  | .error message => if saysMissing message then some none else none

/-- An answer about an account tells what is there, or is a failure. -/
structure Honest (chain : Chain) (key : Pubkey) (answer : RpcAnswer) : Prop where
  found : ∀ account, answer = .ok account → chain key = some account
  missing : ∀ message, answer = .error message → saysMissing message = true → chain key = none

structure Config where
  programId : Pubkey
  legacyProgramId : Option Pubkey
  sessionFetcher : Bool

/-- The parsers and derivations that come from other crates. -/
structure Crates where
  parsePubkey : Text → Option Pubkey
  deriveSettlementRecord : Pubkey → Pubkey → Pubkey

/-- The answer of the settlement endpoint. The fields of the receipt are there together or not
at all; whether its root may still advance is told by the session account. -/
structure OnChainSettlementResponse where
  session : Pubkey
  settlementRecord : Pubkey
  settled : Bool
  merkleRoot : Option Text
  claimHash : Option Text
  settledAmount : Option Text
  settledAt : Option Int64
  rootMayAdvance : Option Bool
deriving DecidableEq

inductive ReadDenial where
  | malformedRequest
  | denied (code : ReasonCode)
  | panicked
deriving DecidableEq

def reconciliationCode : SessionVerificationError → ReasonCode
  | .accountNotFound => .sessionAccountNotFound
  | .depositMismatch _ _ => .depositMismatch
  | .fieldMismatch _ _ _ => .sessionFieldMismatch
  | .alreadySettled => .sessionSettled
  | .wrongProgramOwner _ _ => .notASessionAccount
  | .invalidAccountData _ => .notASessionAccount
  | .notASessionAccount => .notASessionAccount
  | .rpcUnavailable => .chainUnavailable

def parseDenial : Failure → ReadDenial
  | .refused e => .denied (reconciliationCode e)
  | .outOfRange => .panicked

section Handler
variable (cr : Crates) (cfg : Config) (first second : Pubkey → RpcAnswer)

/-- The session's owner and length, when the fetch finds it. A failed fetch is read as none. -/
def sessionAccount (session : Pubkey) : Option (Pubkey × ℕ) :=
  match fetch (first session) with
  | some (some (owner, data)) => some (owner, data.length)
  | _ => none

def unsettledResponse (session record : Pubkey) : OnChainSettlementResponse :=
  ⟨session, record, false, none, none, none, none, none⟩

def settledResponse (session address : Pubkey) (record : SettlementRecordAccount)
    (rootMayAdvance : Option Bool) : OnChainSettlementResponse where
  session := session
  settlementRecord := address
  settled := true
  merkleRoot := some (hex32 record.merkleRoot)
  claimHash := some (hex32 record.claimHash)
  settledAmount := some (natToString record.settledAmount.toNat)
  settledAt := some record.settledAt
  rootMayAdvance := rootMayAdvance

/-- The second half: the record under the program it is derived under. -/
def readRecord (deriveUnder session : Pubkey) (account : Option (Pubkey × ℕ)) :
    Except ReadDenial OnChainSettlementResponse := do
  let address := cr.deriveSettlementRecord deriveUnder session
  let fetched ← okOr (fetch (second address)) (.denied .chainUnavailable)
  match fetched with
  | none => pure (unsettledResponse session address)
  | some (owner, data) => do
    let record ← (parseSettlementRecord owner deriveUnder data).mapError parseDenial
    pure (settledResponse session address record
      (account.map fun a => decide (a.2 ≠ sessionAccountLenV1)))

/-- Only the two programs this gateway knows. -/
def recognised : Option Pubkey → Bool
  | some owner => owner = cfg.programId || cfg.legacyProgramId = some owner
  | none => true

/-- `on_chain_settlement`. The session account is fetched to learn its program, then the
receipt; the node may answer the two differently, and both answers are parameters. -/
def onChainSettlement (session : Text) : Except ReadDenial OnChainSettlementResponse := do
  let session ← okOr (cr.parsePubkey session) .malformedRequest
  require (cfg.sessionFetcher = true) (.denied .chainUnavailable)
  let account := sessionAccount first session
  require (recognised cfg (account.map Prod.fst) = true) (.denied .wrongProgramOwner)
  readRecord cr second ((account.map Prod.fst).getD cfg.programId) session account

end Handler

/-! ### What is on chain -/

/-- The account at the address a program derives for the record of a session. -/
def recordOf (cr : Crates) (chain : Chain) (program session : Pubkey) :
    Except Failure (Option SettlementRecordAccount) :=
  match chain (cr.deriveSettlementRecord program session) with
  | none => .ok none
  | some (owner, data) => (parseSettlementRecord owner program data).map some

/-- The settlement record of a session under a program, if there is one. -/
def settlementOf (cr : Crates) (chain : Chain) (program session : Pubkey) :
    Option SettlementRecordAccount := (recordOf cr chain program session).toOption.join

/-- The fields of a record as the response carries them. -/
def carried (record : SettlementRecordAccount) : Text × Text × Text × Int64 :=
  (hex32 record.merkleRoot, hex32 record.claimHash, natToString record.settledAmount.toNat,
    record.settledAt)

def OnChainSettlementResponse.Carries (r : OnChainSettlementResponse)
    (record : SettlementRecordAccount) : Prop :=
  r.merkleRoot = some (carried record).1 ∧ r.claimHash = some (carried record).2.1 ∧
    r.settledAmount = some (carried record).2.2.1 ∧ r.settledAt = some (carried record).2.2.2

/-- A response says what is recorded under the program that owns the session. -/
structure Reports (settlement : Option SettlementRecordAccount) (r : OnChainSettlementResponse) :
    Prop where
  unsettled : r.settled = false → settlement = none
  settled : r.settled = true → ∃ record, settlement = some record ∧ r.Carries record

/-- The session's account was not read, another program owns it, and what the gateway's own
program has at its address for the session can be read and says something else. -/
structure Misled (cr : Crates) (cfg : Config) (first second : Pubkey → RpcAnswer) (chain : Chain)
    (session owner : Pubkey) : Prop where
  fetcher : cfg.sessionFetcher = true
  lost : fetch (first session) = none
  foreign : owner ≠ cfg.programId
  answered : fetch (second (cr.deriveSettlementRecord cfg.programId session)) ≠ none
  differs : ∃ found, recordOf cr chain cfg.programId session = .ok found ∧
    found.map carried ≠ (settlementOf cr chain owner session).map carried

section Reading
variable {cr : Crates} {cfg : Config} {first second : Pubkey → RpcAnswer} {chain : Chain}
variable {session owner program key : Pubkey} {account : Option (Pubkey × ℕ)}

theorem fetch_honest (h : Honest chain key (first key)) {found : Option (Pubkey × List UInt8)}
    (hf : fetch (first key) = some found) : found = chain key := by
  rcases ha : first key with message | acct
  · rw [ha, fetch] at hf
    split_ifs at hf with hm
    cases hf
    exact (h.missing message ha hm).symm
  · rw [ha, fetch, Option.some.injEq] at hf
    rw [← hf]
    exact (h.found acct ha).symm

def respond (session address : Pubkey) (account : Option (Pubkey × ℕ)) :
    Option SettlementRecordAccount → OnChainSettlementResponse
  | none => unsettledResponse session address
  | some record => settledResponse session address record
      (account.map fun a => decide (a.2 ≠ sessionAccountLenV1))

/-- The second half reports what is at the address, if the node answers. -/
theorem readRecord_eq
    (h : Honest chain (cr.deriveSettlementRecord program session)
      (second (cr.deriveSettlementRecord program session))) :
    readRecord cr second program session account =
      if fetch (second (cr.deriveSettlementRecord program session)) = none then
        .error (.denied .chainUnavailable)
      else ((recordOf cr chain program session).mapError parseDenial).map
        (respond session (cr.deriveSettlementRecord program session) account) := by
  rw [readRecord]
  rcases hf : fetch (second (cr.deriveSettlementRecord program session)) with _ | found
  · rfl
  · have hfound := fetch_honest h hf
    rw [okOr, ok_bind, if_neg (Option.some_ne_none _), recordOf, ← hfound]
    rcases found with _ | ⟨holder, data⟩
    · rfl
    · simp only
      rcases parseSettlementRecord holder program data with e | record
      · rfl
      · rfl

theorem reports_respond {address : Pubkey} {found settlement : Option SettlementRecordAccount} :
    Reports settlement (respond session address account found) ↔
      found.map carried = settlement.map carried := by
  rcases found with _ | record
  · rcases settlement with _ | settlement
    · exact iff_of_true ⟨fun _ => rfl, nofun⟩ rfl
    · refine iff_of_false (fun h => ?_) (by simp)
      exact absurd (h.unsettled rfl) (by simp)
  · rcases settlement with _ | settlement
    · refine iff_of_false (fun h => ?_) (by simp)
      rcases h.settled rfl with ⟨_, hs, -⟩
      cases hs
    · rw [Option.map_some, Option.map_some, Option.some.injEq]
      constructor
      · intro h
        rcases h.settled rfl with ⟨_, hs, h₁, h₂, h₃, h₄⟩
        cases hs
        exact Prod.ext (Option.some.inj h₁) (Prod.ext (Option.some.inj h₂)
          (Prod.ext (Option.some.inj h₃) (Option.some.inj h₄)))
      · intro h
        refine ⟨nofun, fun _ => ⟨settlement, rfl, ?_⟩⟩
        rw [OnChainSettlementResponse.Carries, ← h]
        exact ⟨rfl, rfl, rfl, rfl⟩

/-- What the second half answers under a program is a report of another program's record
exactly when the node gives no answer, the account is no record, or both say the same. -/
theorem readRecord_reports {settlement : Option SettlementRecordAccount}
    (h : Honest chain (cr.deriveSettlementRecord program session)
      (second (cr.deriveSettlementRecord program session))) :
    (∀ r, readRecord cr second program session account = .ok r → Reports settlement r) ↔
      (fetch (second (cr.deriveSettlementRecord program session)) ≠ none →
        ∀ found, recordOf cr chain program session = .ok found →
          found.map carried = settlement.map carried) := by
  rw [readRecord_eq h]
  split_ifs with hf
  · exact iff_of_true nofun (fun hne => absurd hf hne)
  · rcases hrec : recordOf cr chain program session with e | found
    · refine iff_of_true (fun r hr => ?_) (fun _ _ hfound => ?_)
      · cases hr
      · cases hfound
    · simp only [Except.mapError, Except.map, Except.ok.injEq, forall_eq', reports_respond, ne_eq,
        hf, not_false_eq_true, forall_const]

theorem settlementOf_of_recordOf {found : Option SettlementRecordAccount}
    (h : recordOf cr chain program session = .ok found) :
    settlementOf cr chain program session = found := by
  rw [settlementOf, h]
  cases found <;> rfl

end Reading

/-- For a session on chain, the response of the endpoint is what is recorded under the program
that owns the session exactly when the endpoint was not misled. -/
theorem settlement_read_iff {cr : Crates} {cfg : Config} {first second : Pubkey → RpcAnswer}
    {chain : Chain} {session owner : Pubkey} {text : Text} {data : List UInt8}
    (hfirst : ∀ key, Honest chain key (first key)) (hsecond : ∀ key, Honest chain key (second key))
    (hsession : chain session = some (owner, data)) (htext : cr.parsePubkey text = some session) :
    (∀ r, onChainSettlement cr cfg first second text = .ok r →
        Reports (settlementOf cr chain owner session) r) ↔
      ¬Misled cr cfg first second chain session owner := by
  have hparsed : okOr (cr.parsePubkey text) ReadDenial.malformedRequest = .ok session := by
    rw [htext, okOr]
  rw [onChainSettlement, hparsed, ok_bind]
  by_cases hfetcher : cfg.sessionFetcher = true
  · rw [require_bind_of hfetcher]
    rcases hf : fetch (first session) with _ | found
    · have haccount : sessionAccount first session = none := by rw [sessionAccount, hf]
      have hknown : recognised cfg none = true := rfl
      simp only [haccount, Option.map_none, Option.getD_none]
      rw [require_bind_of hknown, readRecord_reports (hsecond _)]
      constructor
      · rintro hall ⟨-, -, -, hanswered, found, hfound, hdiffers⟩
        exact hdiffers (hall hanswered found hfound)
      · intro hno hanswered found hfound
        by_contra hdiffers
        refine hno ⟨hfetcher, hf, ?_, hanswered, found, hfound, hdiffers⟩
        rintro rfl
        exact hdiffers (by rw [settlementOf_of_recordOf hfound])
    · have haccount : sessionAccount first session = some (owner, data.length) := by
        rw [sessionAccount, hf, fetch_honest (hfirst session) hf, hsession]
      simp only [haccount, Option.map_some, Option.getD_some]
      refine iff_of_true (fun r hr => ?_) (fun h => ?_)
      · simp only [bind_eq_ok, require_eq_ok, exists_const] at hr
        refine (readRecord_reports (hsecond _)).mpr (fun _ found hfound => ?_) r hr.2
        rw [settlementOf_of_recordOf hfound]
      · exact Option.some_ne_none _ (hf.symm.trans h.lost)
  · refine iff_of_true (fun r hr => ?_) (fun h => hfetcher h.fetcher)
    simp only [bind_eq_ok, require_eq_ok] at hr
    exact absurd hr.choose_spec.1 hfetcher

namespace Migration

def programId : Pubkey := .replicate 32 1
def legacyProgramId : Pubkey := .replicate 32 2
def session : Pubkey := .replicate 32 3
def ownAddress : Pubkey := .replicate 32 4
def legacyAddress : Pubkey := .replicate 32 5

def config : Config := ⟨programId, some legacyProgramId, true⟩

def name : Text := "SessionOfTheLegacyProgram".toList

def crates : Crates where
  parsePubkey text := if text = name then some session else none
  deriveSettlementRecord program _ :=
    if program = legacyProgramId then legacyAddress else ownAddress

/-- A session of the previous program, settled once for 750. -/
def account : SessionV1 := ⟨.replicate 32 6, .replicate 32 7, .replicate 32 8, .replicate 32 9,
  1000, 750, 0, 5000, .replicate 16 10, 255, 254, true⟩

def record : EscrowState.SettlementRecord :=
  ⟨session, .replicate 32 11, .replicate 32 12, 1700, 750, 253⟩

def chain : Chain := fun key =>
  if key = session then some (legacyProgramId, sessionV1Bytes account)
  else if key = legacyAddress then some (legacyProgramId, recordBytes record)
  else none

def answering : Pubkey → RpcAnswer := fun key =>
  match chain key with
  | some account => .ok account
  | none => .error accountNotFound

def unreachable : Pubkey → RpcAnswer := fun _ => .error "connection refused".toList

theorem answering_honest (key : Pubkey) : Honest chain key (answering key) := by
  unfold answering
  rcases hkey : chain key with _ | account
  · exact ⟨fun _ h => by (cases h), fun _ _ _ => hkey⟩
  · exact ⟨fun _ h => by rw [hkey, Except.ok.inj h], fun _ h => by (cases h)⟩

theorem unreachable_honest (key : Pubkey) : Honest chain key (unreachable key) := by
  refine ⟨fun _ h => by (cases h), fun message h hm => ?_⟩
  have hno : saysMissing "connection refused".toList = false := by decide +kernel
  have hsame : "connection refused".toList = message := Except.error.inj h
  rw [← hsame, hno] at hm
  cases hm

theorem settled : settlementOf crates chain legacyProgramId session = some (ofRecord record) := by
  have hparse : parseSettlementRecord legacyProgramId legacyProgramId (recordBytes record) =
      .ok (ofRecord record) := parseSettlementRecord_eq_ok.mpr ⟨rfl, record.bump, rfl⟩
  have haddress : chain (crates.deriveSettlementRecord legacyProgramId session) =
      some (legacyProgramId, recordBytes record) := by decide +kernel
  rw [settlementOf, recordOf, haddress]
  simp only [hparse]
  rfl

end Migration

/-- With a node that answers, the settled session of the legacy program is reported. -/
theorem settlement_read_iff_answering :
    ∃ r, onChainSettlement Migration.crates Migration.config Migration.answering Migration.answering
        Migration.name = .ok r ∧
      Reports (settlementOf Migration.crates Migration.chain Migration.legacyProgramId
        Migration.session) r := by
  have hsession : Migration.chain Migration.session =
      some (Migration.legacyProgramId, sessionV1Bytes Migration.account) := by decide +kernel
  have hname : Migration.crates.parsePubkey Migration.name = some Migration.session := by
    decide +kernel
  have hread : ¬Misled Migration.crates Migration.config Migration.answering Migration.answering
      Migration.chain Migration.session Migration.legacyProgramId := by
    intro h
    have hlost : fetch (Migration.answering Migration.session) = none := h.lost
    rw [Migration.answering, hsession] at hlost
    cases hlost
  have hok : (onChainSettlement Migration.crates Migration.config Migration.answering
      Migration.answering Migration.name).isOk = true := by decide +kernel
  rcases hr : onChainSettlement Migration.crates Migration.config Migration.answering
      Migration.answering Migration.name with e | r
  · rw [hr] at hok
    cases hok
  · exact ⟨r, rfl, (settlement_read_iff Migration.answering_honest Migration.answering_honest
      hsession hname).mpr hread r hr⟩

/-- One failed fetch, and the settled session of the legacy program is reported as not
settled. -/
theorem legacy_settlement_hidden :
    (∀ key, Honest Migration.chain key (Migration.unreachable key)) ∧
      (∀ key, Honest Migration.chain key (Migration.answering key)) ∧
      Migration.chain Migration.session =
        some (Migration.legacyProgramId, sessionV1Bytes Migration.account) ∧
      Migration.config.legacyProgramId = some Migration.legacyProgramId ∧
      settlementOf Migration.crates Migration.chain Migration.legacyProgramId Migration.session =
        some (ofRecord Migration.record) ∧
      onChainSettlement Migration.crates Migration.config Migration.unreachable Migration.answering
          Migration.name =
        .ok (unsettledResponse Migration.session Migration.ownAddress) ∧
      ¬Reports (settlementOf Migration.crates Migration.chain Migration.legacyProgramId
        Migration.session) (unsettledResponse Migration.session Migration.ownAddress) := by
  refine ⟨Migration.unreachable_honest, Migration.answering_honest, by decide +kernel, rfl,
    Migration.settled, by decide +kernel, ?_⟩
  intro h
  have hnone := h.unsettled rfl
  rw [Migration.settled] at hnone
  cases hnone

end AgentPay.SettlementReads
