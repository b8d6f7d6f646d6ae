import AgentPay.SessionLayouts

/-!
# Reading the accounts of the programs, with every access checked

`SessionAccount::parse` and `parse_settlement_record` with each slice and each index as an
access that can fall outside the data, in the order of the source. No access does, because
the length is compared first, and what is read is what the total reader of
`SessionLayouts` reads. Both parsers invert what the programs write, field by field in the
order of the structs. Of a settlement record the parser leaves the bump alone.
-/
namespace AgentPay.AccountLayouts
open SolanaRuntime EscrowState ClaimMessage Fallible ByteBuffers EvidenceBinding ClaimEncoding
open SessionLayouts (SessionVerificationError SessionAccount Offsets sessionDiscriminator
  sessionAccountLenV1 sessionAccountLenV2 offAgent offProvider v2OffSettlementAuthority v1Offsets
  v2Offsets ofSession)

/-- How a parser ends without a value: it refuses, or it panics on an access. -/
inductive Failure where
  | refused (e : SessionVerificationError)
  | outOfRange
deriving DecidableEq

section Access
variable (data : List UInt8)

/-- `data[off..off + n]`. -/
def sliceAt (n o : ℕ) : Except Failure (List UInt8) := do
  require (o + n ≤ data.length) .outOfRange
  pure (field o n data)

def bytesAt (n o : ℕ) : Except Failure (Vector UInt8 n) := do
  let _ ← sliceAt data n o
  pure (SessionLayouts.bytesAt data n o)

def pubkeyAt (o : ℕ) : Except Failure Pubkey := bytesAt data 32 o

def u64At (o : ℕ) : Except Failure UInt64 := do
  let bytes ← sliceAt data 8 o
  pure (UInt64.ofNat (ofLeBytes bytes))

def i64At (o : ℕ) : Except Failure Int64 := do
  let word ← u64At data o
  pure word.toInt64

/-- `data[off]`. -/
def u8At (o : ℕ) : Except Failure UInt8 := okOr data[o]? .outOfRange

def boolAt (o : ℕ) : Except Failure Bool := do
  let b ← u8At data o
  if b = 0 then pure false
  else if b = 1 then pure true
  else .error (.refused .notASessionAccount)

def versionOf (length : ℕ) : Except Failure Bool :=
  if length = sessionAccountLenV1 then pure false
  else if length = sessionAccountLenV2 then pure true
  else .error (.refused (.invalidAccountData length))

/-- The fields at the table of one version. -/
def readFields (off : Offsets) (settlementAuthority : Except Failure (Option Pubkey)) :
    Except Failure SessionAccount := do
  let sessionId ← bytesAt data 16 off.sessionId
  let agent ← pubkeyAt data offAgent
  let provider ← pubkeyAt data offProvider
  let settlementAuthority ← settlementAuthority
  let mint ← pubkeyAt data off.mint
  let vault ← pubkeyAt data off.vault
  let depositedTotal ← u64At data off.depositedTotal
  let cumulativeSettled ← u64At data off.cumulativeSettled
  let refundedTotal ← u64At data off.refundedTotal
  let expiresAt ← i64At data off.expiresAt
  let bump ← u8At data off.bump
  let vaultBump ← u8At data off.vaultBump
  let isSettled ← boolAt data off.isSettled
  pure ⟨agent, provider, settlementAuthority, mint, vault, depositedTotal, cumulativeSettled,
    refundedTotal, expiresAt, sessionId, bump, vaultBump, isSettled⟩

/-- `SessionAccount::parse`. -/
def parse : Except Failure SessionAccount := do
  require (8 ≤ data.length) (.refused (.invalidAccountData data.length))
  let head ← sliceAt data 8 0
  require (head = sessionDiscriminator) (.refused .notASessionAccount)
  let v2 ← versionOf data.length
  if v2 then
    readFields data v2Offsets (some <$> pubkeyAt data v2OffSettlementAuthority)
  else readFields data v1Offsets (pure none)

end Access

/-! ### Settlement records -/

/-- `sha256("account:SettlementRecord")[..8]`. -/
def settlementDiscriminator : List UInt8 := [172, 159, 67, 74, 96, 85, 37, 205]

def settlementRecordLen : ℕ := 8 + 32 + 32 + 32 + 8 + 8 + 1

def offSrSession : ℕ := 8
def offSrClaimHash : ℕ := 40
def offSrMerkleRoot : ℕ := 72
def offSrSettledAt : ℕ := 104
def offSrSettledAmount : ℕ := 112

/-- What the gateway keeps of a settlement record. -/
structure SettlementRecordAccount where
  session : Pubkey
  claimHash : Hash
  merkleRoot : Hash
  settledAt : Int64
  settledAmount : UInt64
deriving DecidableEq

def parseSettlementRecord (owner programId : Pubkey) (data : List UInt8) :
    Except Failure SettlementRecordAccount := do
  require (owner = programId) (.refused (.wrongProgramOwner programId owner))
  require (data.length = settlementRecordLen) (.refused (.invalidAccountData data.length))
  let head ← sliceAt data 8 0
  require (head = settlementDiscriminator) (.refused .notASessionAccount)
  let session ← pubkeyAt data offSrSession
  let claimHash ← bytesAt data 32 offSrClaimHash
  let merkleRoot ← bytesAt data 32 offSrMerkleRoot
  let settledAt ← i64At data offSrSettledAt
  let settledAmount ← u64At data offSrSettledAmount
  pure ⟨session, claimHash, merkleRoot, settledAt, settledAmount⟩

/-! ### What the programs write -/

/-- The account of a session, in the order of the program's struct. -/
def sessionBytes (s : Session) : List UInt8 :=
  sessionDiscriminator ++ (s.agent.toList ++ (s.provider.toList ++
    (s.settlementAuthority.toList ++ (s.mint.toList ++ (s.vault.toList ++
      (u64LeBytes s.depositedTotal ++ (u64LeBytes s.cumulativeSettled ++
        (u64LeBytes s.refundedTotal ++ (i64LeBytes s.expiresAt ++ (s.sessionId.toList ++
          [s.bump, s.vaultBump, if s.isSettled then 1 else 0]))))))))))

/-- The session of the previous program, which has no settlement authority. -/
structure SessionV1 where
  agent : Pubkey
  provider : Pubkey
  mint : Pubkey
  vault : Pubkey
  depositedTotal : UInt64
  cumulativeSettled : UInt64
  refundedTotal : UInt64
  expiresAt : Int64
  sessionId : SessionId
  bump : UInt8
  vaultBump : UInt8
  isSettled : Bool
deriving DecidableEq

def sessionV1Bytes (s : SessionV1) : List UInt8 :=
  sessionDiscriminator ++ (s.agent.toList ++ (s.provider.toList ++ (s.mint.toList ++
    (s.vault.toList ++ (u64LeBytes s.depositedTotal ++ (u64LeBytes s.cumulativeSettled ++
      (u64LeBytes s.refundedTotal ++ (i64LeBytes s.expiresAt ++ (s.sessionId.toList ++
        [s.bump, s.vaultBump, if s.isSettled then 1 else 0])))))))))

def ofSessionV1 (s : SessionV1) : SessionAccount where
  agent := s.agent
  provider := s.provider
  settlementAuthority := none
  mint := s.mint
  vault := s.vault
  depositedTotal := s.depositedTotal
  cumulativeSettled := s.cumulativeSettled
  refundedTotal := s.refundedTotal
  expiresAt := s.expiresAt
  sessionId := s.sessionId
  bump := s.bump
  vaultBump := s.vaultBump
  isSettled := s.isSettled

/-- A settlement record, in the order of the program's struct. -/
def recordBytes (r : SettlementRecord) : List UInt8 :=
  settlementDiscriminator ++ (r.session.toList ++ (r.claimHash.toList ++ (r.merkleRoot.toList ++
    (i64LeBytes r.settledAt ++ (u64LeBytes r.settledAmount ++ [r.bump])))))

def ofRecord (r : SettlementRecord) : SettlementRecordAccount where
  session := r.session
  claimHash := r.claimHash
  merkleRoot := r.merkleRoot
  settledAt := r.settledAt
  settledAmount := r.settledAmount

/-! ### No access falls outside -/

section Total
variable {data : List UInt8} {n o : ℕ}

theorem sliceAt_of_le (h : o + n ≤ data.length) : sliceAt data n o = .ok (field o n data) :=
  require_bind_of h

theorem bytesAt_of_le (h : o + n ≤ data.length) :
    bytesAt data n o = .ok (SessionLayouts.bytesAt data n o) := by
  rw [bytesAt, sliceAt_of_le h, ok_bind]
  rfl

theorem pubkeyAt_of_le (h : o + 32 ≤ data.length) :
    pubkeyAt data o = .ok (SessionLayouts.pubkeyAt data o) := bytesAt_of_le h

theorem u64At_of_le (h : o + 8 ≤ data.length) :
    u64At data o = .ok (SessionLayouts.u64At data o) := by
  rw [u64At, sliceAt_of_le h, ok_bind]
  rfl

theorem i64At_of_le (h : o + 8 ≤ data.length) :
    i64At data o = .ok (SessionLayouts.i64At data o) := by
  rw [i64At, u64At_of_le h, ok_bind]
  rfl

theorem u8At_of_lt (h : o + 1 ≤ data.length) : u8At data o = .ok (SessionLayouts.u8At data o) := by
  rw [u8At, SessionLayouts.u8At, List.getD_eq_getElem?_getD, List.getElem?_eq_getElem h, okOr,
    Option.getD_some]

theorem boolAt_of_lt (h : o + 1 ≤ data.length) :
    boolAt data o = (SessionLayouts.boolAt data o).mapError .refused := by
  rw [boolAt, SessionLayouts.boolAt, u8At_of_lt h, ok_bind]
  split_ifs
  · rfl
  · rfl
  · rfl

theorem readFields_eq {off : Offsets} {authority : Option Pubkey} (hw : off.Within data.length) :
    readFields data off (.ok authority) =
      (SessionLayouts.readFields data off authority).mapError .refused := by
  have hkeys := hw.keys
  rw [readFields, SessionLayouts.readFields, bytesAt_of_le hw.sessionId, ok_bind,
    pubkeyAt_of_le (by rw [offAgent]; omega), ok_bind, pubkeyAt_of_le (by rw [offProvider]; omega),
    ok_bind, ok_bind, pubkeyAt_of_le hw.mint, ok_bind, pubkeyAt_of_le hw.vault, ok_bind,
    u64At_of_le hw.depositedTotal, ok_bind, u64At_of_le hw.cumulativeSettled, ok_bind,
    u64At_of_le hw.refundedTotal, ok_bind, i64At_of_le hw.expiresAt, ok_bind, u8At_of_lt hw.bump,
    ok_bind, u8At_of_lt hw.vaultBump, ok_bind, boolAt_of_lt hw.isSettled]
  rcases SessionLayouts.boolAt data off.isSettled with e | flag
  · rfl
  · rfl

theorem within_v1 (h : data.length = sessionAccountLenV1) : v1Offsets.Within data.length := by
  rw [h]
  constructor <;> decide

theorem within_v2 (h : data.length = sessionAccountLenV2) : v2Offsets.Within data.length := by
  rw [h]
  constructor <;> decide

/-- The checked parser is the total one, so it never panics. -/
theorem parse_eq : parse data = (SessionLayouts.parse data).mapError .refused := by
  by_cases h8 : 8 ≤ data.length
  · have hfield : field 0 8 data = data.take 8 := by rw [field, List.drop_zero]
    rw [parse, SessionLayouts.parse, require_bind_of h8, require_bind_of h8,
      sliceAt_of_le (by omega), ok_bind, hfield]
    by_cases hhead : data.take 8 = sessionDiscriminator
    · rw [require_bind_of hhead, require_bind_of hhead]
      by_cases h₁ : data.length = sessionAccountLenV1
      · rw [versionOf, if_pos h₁, if_pos h₁]
        exact readFields_eq (within_v1 h₁)
      · by_cases h₂ : data.length = sessionAccountLenV2
        · have hkey : v2OffSettlementAuthority + 32 ≤ data.length := by
            rw [h₂]
            decide
          rw [versionOf, if_neg h₁, if_pos h₂, if_neg h₁, if_pos h₂, pubkeyAt_of_le hkey]
          exact readFields_eq (within_v2 h₂)
        · rw [versionOf, if_neg h₁, if_neg h₂, if_neg h₁, if_neg h₂]
          rfl
    · rw [require, if_neg hhead, require, if_neg hhead]
      rfl
  · rw [parse, SessionLayouts.parse, require, if_neg h8, require, if_neg h8]
    rfl

/-- The record at its offsets. -/
def recordAt (data : List UInt8) : SettlementRecordAccount where
  session := SessionLayouts.pubkeyAt data offSrSession
  claimHash := SessionLayouts.bytesAt data 32 offSrClaimHash
  merkleRoot := SessionLayouts.bytesAt data 32 offSrMerkleRoot
  settledAt := SessionLayouts.i64At data offSrSettledAt
  settledAmount := SessionLayouts.u64At data offSrSettledAmount

/-- Behind the three checks every access is within the data. -/
theorem parseSettlementRecord_eq {owner programId : Pubkey} :
    parseSettlementRecord owner programId data = (do
      require (owner = programId) (.refused (.wrongProgramOwner programId owner))
      require (data.length = settlementRecordLen) (.refused (.invalidAccountData data.length))
      require (data.take 8 = settlementDiscriminator) (.refused .notASessionAccount)
      pure (recordAt data)) := by
  rw [parseSettlementRecord]
  congr 1
  funext _
  by_cases hlen : data.length = settlementRecordLen
  · have h121 : data.length = 121 := hlen
    have hfield : field 0 8 data = data.take 8 := by rw [field, List.drop_zero]
    rw [require_bind_of hlen, require_bind_of hlen, sliceAt_of_le (by omega), ok_bind, hfield]
    congr 1
    funext _
    rw [pubkeyAt_of_le (by rw [offSrSession]; omega), ok_bind,
      bytesAt_of_le (by rw [offSrClaimHash]; omega), ok_bind,
      bytesAt_of_le (by rw [offSrMerkleRoot]; omega), ok_bind,
      i64At_of_le (by rw [offSrSettledAt]; omega), ok_bind,
      u64At_of_le (by rw [offSrSettledAmount]; omega), ok_bind]
    rfl
  · rw [require, if_neg hlen]
    rfl

end Total

/-! ### The records the program writes -/

section Records
variable {data : List UInt8} {owner programId : Pubkey} {r : SettlementRecordAccount}

def SettlementRecordAccount.withBump (r : SettlementRecordAccount) (bump : UInt8) :
    SettlementRecord :=
  ⟨r.session, r.claimHash, r.merkleRoot, r.settledAt, r.settledAmount, bump⟩

theorem length_recordBytes (r : SettlementRecord) :
    (recordBytes r).length = settlementRecordLen := by
  simp [recordBytes, length_u64LeBytes, length_i64LeBytes, settlementDiscriminator,
    settlementRecordLen]

theorem field_discriminator {rest : List UInt8} {o n : ℕ} (h : 8 ≤ o) :
    field o n (settlementDiscriminator ++ rest) = field (o - 8) n rest := field_behind rfl h

theorem recordAt_recordBytes (r : SettlementRecord) : recordAt (recordBytes r) = ofRecord r := by
  have hsession : field offSrSession 32 (recordBytes r) = r.session.toList := by
    simp (disch := decide) only [recordBytes, offSrSession, field_discriminator,
      SessionLayouts.field_vector_here, Nat.reduceSub]
  have hclaim : field offSrClaimHash 32 (recordBytes r) = r.claimHash.toList := by
    simp (disch := decide) only [recordBytes, offSrClaimHash, field_discriminator,
      SessionLayouts.field_vector, SessionLayouts.field_vector_here, Nat.reduceSub]
  have hroot : field offSrMerkleRoot 32 (recordBytes r) = r.merkleRoot.toList := by
    simp (disch := decide) only [recordBytes, offSrMerkleRoot, field_discriminator,
      SessionLayouts.field_vector, SessionLayouts.field_vector_here, Nat.reduceSub]
  have htime : field offSrSettledAt 8 (recordBytes r) = i64LeBytes r.settledAt := by
    simp (disch := decide) only [recordBytes, offSrSettledAt, field_discriminator,
      SessionLayouts.field_vector, SessionLayouts.field_i64_here, Nat.reduceSub]
  have hamount : field offSrSettledAmount 8 (recordBytes r) = u64LeBytes r.settledAmount := by
    simp (disch := decide) only [recordBytes, offSrSettledAmount, field_discriminator,
      SessionLayouts.field_vector, SessionLayouts.field_i64, SessionLayouts.field_u64_here,
      Nat.reduceSub]
  rw [recordAt, SessionLayouts.pubkeyAt, SessionLayouts.bytesAt_of_field hsession,
    SessionLayouts.bytesAt_of_field hclaim, SessionLayouts.bytesAt_of_field hroot,
    SessionLayouts.i64At_of_field htime, SessionLayouts.u64At_of_field hamount]
  rfl

theorem split_record (h : data.length = settlementRecordLen) : data =
    data.take 8 ++ (field 8 32 data ++ (field 40 32 data ++ (field 72 32 data ++
      (field 104 8 data ++ (field 112 8 data ++ field 120 1 data))))) := by
  have hend : data.drop 121 = [] := List.drop_eq_nil_of_le h.le
  conv_lhs => rw [← List.take_append_drop 8 data]
  rw [@drop_eq_field _ _ 8 32 40 rfl, @drop_eq_field _ _ 40 32 72 rfl,
    @drop_eq_field _ _ 72 32 104 rfl, @drop_eq_field _ _ 104 8 112 rfl,
    @drop_eq_field _ _ 112 8 120 rfl, @drop_eq_field _ _ 120 1 121 rfl, hend, List.append_nil]

theorem recordBytes_recordAt (h : data.length = settlementRecordLen)
    (hhead : data.take 8 = settlementDiscriminator) :
    data = recordBytes ((recordAt data).withBump (SessionLayouts.u8At data 120)) := by
  have hlen : data.length = 121 := h
  conv_lhs => rw [split_record h, hhead]
  rw [recordBytes, SettlementRecordAccount.withBump, recordAt, SessionLayouts.pubkeyAt,
    offSrSession, offSrClaimHash, offSrMerkleRoot, offSrSettledAt, offSrSettledAmount]
  simp only
  rw [SessionLayouts.toList_bytesAt (by omega), SessionLayouts.toList_bytesAt (by omega),
    SessionLayouts.toList_bytesAt (by omega), SessionLayouts.i64LeBytes_i64At (by omega),
    SessionLayouts.u64LeBytes_u64At (by omega), SessionLayouts.field_u8At (by omega)]

/-- The parser accepts exactly what the program writes, under the program's ownership. -/
theorem parseSettlementRecord_eq_ok : parseSettlementRecord owner programId data = .ok r ↔
    owner = programId ∧ ∃ bump, data = recordBytes (r.withBump bump) := by
  simp only [parseSettlementRecord_eq, bind_eq_ok, require_eq_ok, pure_eq_ok, exists_const]
  constructor
  · rintro ⟨hown, hlen, hhead, rfl⟩
    exact ⟨hown, _, recordBytes_recordAt hlen hhead⟩
  · rintro ⟨hown, bump, rfl⟩
    refine ⟨hown, length_recordBytes _, ?_, ?_⟩
    · rw [recordBytes]
      exact List.take_left' rfl
    · rw [recordAt_recordBytes]
      rfl

theorem parseSettlementRecord_raises :
    Raises (fun e => e ≠ Failure.outOfRange) (parseSettlementRecord owner programId data) := by
  simp only [parseSettlementRecord_eq, raises_bind, raises_require, raises_pure, ne_eq,
    reduceCtorEq, not_false_eq_true, implies_true, and_true]

end Records

/-! ### The sessions the programs write -/

section Sessions
variable {data : List UInt8} {a : SessionAccount}

theorem serialize_ofSession (s : Session) : (ofSession s).serialize = sessionBytes s := rfl

theorem serialize_ofSessionV1 (s : SessionV1) : (ofSessionV1 s).serialize = sessionV1Bytes s := rfl

theorem length_sessionBytes (s : Session) : (sessionBytes s).length = sessionAccountLenV2 :=
  SessionLayouts.length_serialize (ofSession s)

theorem length_sessionV1Bytes (s : SessionV1) : (sessionV1Bytes s).length = sessionAccountLenV1 :=
  SessionLayouts.length_serialize (ofSessionV1 s)

theorem parse_eq_ok : parse data = .ok a ↔ data = a.serialize := by
  rw [parse_eq, mapError_eq_ok, SessionLayouts.parse_iff]

/-- A parsed account is a session of the one program or of the other. -/
theorem written_of_parse (h : parse data = .ok a) :
    (∃ s, a = ofSession s ∧ data = sessionBytes s) ∨
      ∃ s, a = ofSessionV1 s ∧ data = sessionV1Bytes s := by
  have hdata := parse_eq_ok.mp h
  rcases hauth : a.settlementAuthority with _ | authority
  · have ha : a = ofSessionV1 ⟨a.agent, a.provider, a.mint, a.vault, a.depositedTotal,
        a.cumulativeSettled, a.refundedTotal, a.expiresAt, a.sessionId, a.bump, a.vaultBump,
        a.isSettled⟩ := by
      rw [ofSessionV1, ← hauth]
    exact .inr ⟨_, ha, by rw [hdata, ← serialize_ofSessionV1, ← ha]⟩
  · have ha : a = ofSession ⟨a.agent, a.provider, authority, a.mint, a.vault, a.depositedTotal,
        a.cumulativeSettled, a.refundedTotal, a.expiresAt, a.sessionId, a.bump, a.vaultBump,
        a.isSettled⟩ := by
      rw [ofSession, ← hauth]
    exact .inl ⟨_, ha, by rw [hdata, ← serialize_ofSession, ← ha]⟩

theorem parse_raises : Raises (fun e => e ≠ Failure.outOfRange) (parse data) := by
  rw [parse_eq, raises_mapError]
  exact fun _ _ => nofun

end Sessions

/-- Both parsers invert the layouts of the programs, accept nothing else, and access nothing
outside the data. A legacy account and one of the current program are never confused. -/
theorem account_parsing_inverts :
    (∀ s : Session, (sessionBytes s).length = 219 ∧ parse (sessionBytes s) = .ok (ofSession s)) ∧
    (∀ s : SessionV1, (sessionV1Bytes s).length = 187 ∧
      parse (sessionV1Bytes s) = .ok (ofSessionV1 s)) ∧
    (∀ data a, parse data = .ok a → (∃ s, a = ofSession s ∧ data = sessionBytes s) ∨
      ∃ s, a = ofSessionV1 s ∧ data = sessionV1Bytes s) ∧
    (∀ s s₁, sessionBytes s ≠ sessionV1Bytes s₁) ∧
    (∀ r programId, parseSettlementRecord programId programId (recordBytes r) = .ok (ofRecord r)) ∧
    (∀ owner programId data r, parseSettlementRecord owner programId data = .ok r →
      owner = programId ∧ data.length = 121 ∧ data.take 8 = settlementDiscriminator ∧
        ∃ record, ofRecord record = r ∧ recordBytes record = data) ∧
    (∀ data, parse data ≠ .error .outOfRange) ∧
    ∀ owner programId data, parseSettlementRecord owner programId data ≠ .error .outOfRange := by
  refine ⟨?_, ?_, fun _ _ => written_of_parse, ?_, ?_, ?_, ?_, ?_⟩
  · exact fun s => ⟨length_sessionBytes s, parse_eq_ok.mpr (serialize_ofSession s).symm⟩
  · exact fun s => ⟨length_sessionV1Bytes s, parse_eq_ok.mpr (serialize_ofSessionV1 s).symm⟩
  · intro s s₁ h
    have hlen := congrArg List.length h
    rw [length_sessionBytes, length_sessionV1Bytes] at hlen
    exact absurd hlen (by decide)
  · exact fun r programId => parseSettlementRecord_eq_ok.mpr ⟨rfl, r.bump, rfl⟩
  · intro owner programId data r h
    rcases parseSettlementRecord_eq_ok.mp h with ⟨hown, bump, rfl⟩
    refine ⟨hown, length_recordBytes _, ?_, r.withBump bump, rfl, rfl⟩
    rw [recordBytes]
    exact List.take_left' rfl
  · exact fun data h => parse_raises _ h rfl
  · exact fun owner programId data h => parseSettlementRecord_raises _ h rfl

end AgentPay.AccountLayouts
