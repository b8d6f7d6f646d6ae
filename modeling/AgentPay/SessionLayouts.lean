import AgentPay.ClaimEncoding
import AgentPay.SettlementRequests

/-!
# Session accounts byte by byte

`SessionAccount::parse` and `verify_on_chain_session` over the bytes of an account, for
the layout of the current program and for that of the program before it, which has no
settlement authority. Only the length tells them apart. What `parse` accepts is exactly
what the programs write, so on an account of the current program the reconciliation of
bytes is the reconciliation of sessions.

The previous program is not part of the repository. Of it only its layout is used.
-/
namespace AgentPay.SessionLayouts
open SolanaRuntime EscrowState ClaimMessage EscrowProgram GatewayClaims SessionStore Fallible
open ByteBuffers EvidenceBinding ClaimEncoding
open SettlementRequests (Config ClaimedSession FieldValue)

/-- `sha256("account:Session")[..8]`, the same for both programs. -/
def sessionDiscriminator : List UInt8 := [243, 81, 72, 115, 214, 188, 72, 144]

def sessionAccountLenV1 : ℕ := 187
def sessionAccountLenV2 : ℕ := 219

def offAgent : ℕ := 8
def offProvider : ℕ := 40
def v2OffSettlementAuthority : ℕ := 72

/-- Where the fields behind the keys stand. -/
structure Offsets where
  mint : ℕ
  vault : ℕ
  depositedTotal : ℕ
  cumulativeSettled : ℕ
  refundedTotal : ℕ
  expiresAt : ℕ
  sessionId : ℕ
  bump : ℕ
  vaultBump : ℕ
  isSettled : ℕ

def v1Offsets : Offsets := ⟨72, 104, 136, 144, 152, 160, 168, 184, 185, 186⟩
def v2Offsets : Offsets := ⟨104, 136, 168, 176, 184, 192, 200, 216, 217, 218⟩

/-- A session account of either program. -/
structure SessionAccount where
  agent : Pubkey
  provider : Pubkey
  settlementAuthority : Option Pubkey
  mint : Pubkey
  vault : Pubkey
  depositedTotal : UInt64
  cumulativeSettled : UInt64
  refundedTotal : UInt64
  expiresAt : Int64
  sessionId : SessionId
  bump : UInt8
  vaultBump : UInt8
  isSettled : Bool
deriving DecidableEq

/-- Why a session account is not taken for the one a caller described. The values of a mismatch
are kept, the sentences around them are not. -/
inductive SessionVerificationError where
  | accountNotFound
  | wrongProgramOwner (expected actual : Pubkey)
  | invalidAccountData (length : ℕ)
  | notASessionAccount
  | alreadySettled
  | depositMismatch (expected onChain : UInt64)
  | fieldMismatch (field : String) (expected onChain : FieldValue)
  | rpcUnavailable
deriving DecidableEq

section Reading
variable (data : List UInt8)

/-- An array field. The length of the data is checked before any is read. -/
def bytesAt (n o : ℕ) : Vector UInt8 n := Vector.ofFn fun i => (field o n data).getD i 0

def pubkeyAt (o : ℕ) : Pubkey := bytesAt data 32 o

def u64At (o : ℕ) : UInt64 := UInt64.ofNat (ofLeBytes (field o 8 data))

def i64At (o : ℕ) : Int64 := (u64At data o).toInt64

def u8At (o : ℕ) : UInt8 := data.getD o 0

/-- A `bool` is a byte 0 or 1. -/
def boolAt (o : ℕ) : Except SessionVerificationError Bool :=
  if u8At data o = 0 then pure false
  else if u8At data o = 1 then pure true
  else .error .notASessionAccount

def readFields (off : Offsets) (settlementAuthority : Option Pubkey) :
    Except SessionVerificationError SessionAccount := do
  let isSettled ← boolAt data off.isSettled
  pure {
    agent := pubkeyAt data offAgent
    provider := pubkeyAt data offProvider
    settlementAuthority := settlementAuthority
    mint := pubkeyAt data off.mint
    vault := pubkeyAt data off.vault
    depositedTotal := u64At data off.depositedTotal
    cumulativeSettled := u64At data off.cumulativeSettled
    refundedTotal := u64At data off.refundedTotal
    expiresAt := i64At data off.expiresAt
    sessionId := bytesAt data 16 off.sessionId
    bump := u8At data off.bump
    vaultBump := u8At data off.vaultBump
    isSettled := isSettled }

/-- `SessionAccount::parse`. The two lengths are the two versions. Reads go past the end of the
data in no case, which is shown where every access is checked, in `AccountLayouts`. -/
def parse : Except SessionVerificationError SessionAccount := do
  require (8 ≤ data.length) (.invalidAccountData data.length)
  require (data.take 8 = sessionDiscriminator) .notASessionAccount
  if data.length = sessionAccountLenV1 then readFields data v1Offsets none
  else if data.length = sessionAccountLenV2 then
    readFields data v2Offsets (some (pubkeyAt data v2OffSettlementAuthority))
  else .error (.invalidAccountData data.length)

end Reading

/-- What a fetch of an account gives: nothing when the node cannot be reached. -/
abbrev Fetched := Option (Option (Pubkey × List UInt8))

/-- `verify_on_chain_session`. Only two programs are recognised. -/
def verifyOnChainSession (programId : Pubkey) (legacyProgramId : Option Pubkey) (fetched : Fetched)
    (claimed : ClaimedSession) : Except SessionVerificationError SessionAccount := do
  let found ← okOr fetched .rpcUnavailable
  let (owner, data) ← okOr found .accountNotFound
  require (owner = programId ∨ legacyProgramId = some owner) (.wrongProgramOwner programId owner)
  let account ← parse data
  require (account.isSettled = false) .alreadySettled
  require (account.depositedTotal = claimed.depositedTotal)
    (.depositMismatch claimed.depositedTotal account.depositedTotal)
  require (account.agent = claimed.agent)
    (.fieldMismatch "agent" (.key claimed.agent) (.key account.agent))
  require (account.provider = claimed.provider)
    (.fieldMismatch "provider" (.key claimed.provider) (.key account.provider))
  require (account.mint = claimed.mint)
    (.fieldMismatch "mint" (.key claimed.mint) (.key account.mint))
  require (account.expiresAt = claimed.expiresAt)
    (.fieldMismatch "expires_at" (.time claimed.expiresAt) (.time account.expiresAt))
  pure account

/-! ### What the programs write -/

/-- The account as Anchor serialises it, discriminator first and fields in order. -/
def SessionAccount.serialize (a : SessionAccount) : List UInt8 :=
  sessionDiscriminator ++ (a.agent.toList ++ (a.provider.toList ++
    ((a.settlementAuthority.map Vector.toList).getD [] ++ (a.mint.toList ++ (a.vault.toList ++
      (u64LeBytes a.depositedTotal ++ (u64LeBytes a.cumulativeSettled ++
        (u64LeBytes a.refundedTotal ++ (i64LeBytes a.expiresAt ++ (a.sessionId.toList ++
          [a.bump, a.vaultBump, if a.isSettled then 1 else 0]))))))))))

def ofSession (s : Session) : SessionAccount where
  agent := s.agent
  provider := s.provider
  settlementAuthority := some s.settlementAuthority
  mint := s.mint
  vault := s.vault
  depositedTotal := s.depositedTotal
  cumulativeSettled := s.cumulativeSettled
  refundedTotal := s.refundedTotal
  expiresAt := s.expiresAt
  sessionId := s.sessionId
  bump := s.bump
  vaultBump := s.vaultBump
  isSettled := s.isSettled

section Fields
variable {data : List UInt8} {o n : ℕ}

theorem getElem_bytesAt {i : ℕ} (hi : i < n) :
    (bytesAt data n o)[i] = ((field o n data)[i]?).getD 0 := by
  simp only [bytesAt, Vector.getElem_ofFn, List.getD_eq_getElem?_getD]

theorem bytesAt_of_field {v : Vector UInt8 n} (h : field o n data = v.toList) :
    bytesAt data n o = v := by
  apply Vector.ext
  intro i hi
  rw [getElem_bytesAt hi, h, List.getElem?_eq_getElem (by simpa using hi), Option.getD_some,
    Vector.getElem_toList]

theorem u64At_of_field {x : UInt64} (h : field o 8 data = u64LeBytes x) : u64At data o = x := by
  rw [u64At, h, u64LeBytes, ofLeBytes_leBytes 8 x.toNat_lt, UInt64.ofNat_toNat]

theorem i64At_of_field {x : Int64} (h : field o 8 data = i64LeBytes x) : i64At data o = x := by
  rw [i64At, u64At_of_field (x := x.toUInt64) h, Int64.toInt64_toUInt64]

theorem toList_bytesAt (h : o + n ≤ data.length) : (bytesAt data n o).toList = field o n data := by
  have hlen := length_field h
  apply List.ext_getElem
  · rw [Vector.length_toList, hlen]
  · intro i hi hi'
    rw [Vector.getElem_toList, getElem_bytesAt (by omega), List.getElem?_eq_getElem hi',
      Option.getD_some]

theorem field_vector_here {rest : List UInt8} (v : Vector UInt8 n) :
    field 0 n (v.toList ++ rest) = v.toList := field_here Vector.length_toList

theorem field_vector {m : ℕ} {rest : List UInt8} (v : Vector UInt8 m) (h : m ≤ o) :
    field o n (v.toList ++ rest) = field (o - m) n rest := field_behind Vector.length_toList h

theorem field_u64_here {rest : List UInt8} (x : UInt64) :
    field 0 8 (u64LeBytes x ++ rest) = u64LeBytes x := field_here (length_u64LeBytes x)

theorem field_u64 {rest : List UInt8} (x : UInt64) (h : 8 ≤ o) :
    field o n (u64LeBytes x ++ rest) = field (o - 8) n rest := field_behind (length_u64LeBytes x) h

theorem field_i64_here {rest : List UInt8} (x : Int64) :
    field 0 8 (i64LeBytes x ++ rest) = i64LeBytes x := field_here (length_i64LeBytes x)

theorem field_i64 {rest : List UInt8} (x : Int64) (h : 8 ≤ o) :
    field o n (i64LeBytes x ++ rest) = field (o - 8) n rest := field_behind (length_i64LeBytes x) h

theorem field_discriminator {rest : List UInt8} (h : 8 ≤ o) :
    field o n (sessionDiscriminator ++ rest) = field (o - 8) n rest := field_behind rfl h

theorem u8At_of_field {b : UInt8} (h : field o 1 data = [b]) : u8At data o = b := by
  have hhead : (field o 1 data)[0]? = some b := by rw [h]; rfl
  rw [field, List.getElem?_take_of_lt one_pos, List.getElem?_drop, Nat.add_zero] at hhead
  rw [u8At, List.getD_eq_getElem?_getD, hhead, Option.getD_some]

end Fields

section RoundTrip
variable {data : List UInt8} {a : SessionAccount}

theorem length_serialize (a : SessionAccount) : a.serialize.length =
    if a.settlementAuthority.isSome then sessionAccountLenV2 else sessionAccountLenV1 := by
  rcases h : a.settlementAuthority with _ | authority
  · simp [SessionAccount.serialize, h, length_u64LeBytes, length_i64LeBytes, sessionDiscriminator,
      sessionAccountLenV1]
  · simp [SessionAccount.serialize, h, length_u64LeBytes, length_i64LeBytes, sessionDiscriminator,
      sessionAccountLenV2]

/-- Every field stands where the table says. -/
structure Placed (data : List UInt8) (off : Offsets) (a : SessionAccount) : Prop where
  agent : field offAgent 32 data = a.agent.toList
  provider : field offProvider 32 data = a.provider.toList
  mint : field off.mint 32 data = a.mint.toList
  vault : field off.vault 32 data = a.vault.toList
  depositedTotal : field off.depositedTotal 8 data = u64LeBytes a.depositedTotal
  cumulativeSettled : field off.cumulativeSettled 8 data = u64LeBytes a.cumulativeSettled
  refundedTotal : field off.refundedTotal 8 data = u64LeBytes a.refundedTotal
  expiresAt : field off.expiresAt 8 data = i64LeBytes a.expiresAt
  sessionId : field off.sessionId 16 data = a.sessionId.toList
  bump : field off.bump 1 data = [a.bump]
  vaultBump : field off.vaultBump 1 data = [a.vaultBump]
  isSettled : field off.isSettled 1 data = [if a.isSettled then 1 else 0]

theorem boolAt_of_field {o : ℕ} {b : Bool} (h : field o 1 data = [if b then 1 else 0]) :
    boolAt data o = .ok b := by
  rw [boolAt, u8At_of_field h]
  cases b
  · rfl
  · rfl

theorem Placed.readFields {off : Offsets} (h : Placed data off a) :
    readFields data off a.settlementAuthority = .ok a := by
  rw [SessionLayouts.readFields, boolAt_of_field h.isSettled, ok_bind, pubkeyAt,
    bytesAt_of_field h.agent, pubkeyAt, bytesAt_of_field h.provider, pubkeyAt,
    bytesAt_of_field h.mint, pubkeyAt, bytesAt_of_field h.vault, u64At_of_field h.depositedTotal,
    u64At_of_field h.cumulativeSettled, u64At_of_field h.refundedTotal, i64At_of_field h.expiresAt,
    bytesAt_of_field h.sessionId, u8At_of_field h.bump, u8At_of_field h.vaultBump]
  rfl

theorem placed_v1 (h : a.settlementAuthority = none) : Placed a.serialize v1Offsets a := by
  constructor
  all_goals
    simp (disch := decide) only [SessionAccount.serialize, v1Offsets, offAgent, offProvider, h,
      Option.map_none, Option.getD_none, List.nil_append, field_discriminator, field_vector,
      field_vector_here, field_u64, field_u64_here, field_i64, field_i64_here, Nat.reduceSub]
  all_goals rfl

theorem placed_v2 {authority : Pubkey} (h : a.settlementAuthority = some authority) :
    Placed a.serialize v2Offsets a ∧
      field v2OffSettlementAuthority 32 a.serialize = authority.toList := by
  refine ⟨?_, ?_⟩
  · constructor
    all_goals
      simp (disch := decide) only [SessionAccount.serialize, v2Offsets, offAgent, offProvider, h,
        Option.map_some, Option.getD_some, field_discriminator, field_vector, field_vector_here,
        field_u64, field_u64_here, field_i64, field_i64_here, Nat.reduceSub]
    all_goals rfl
  · simp (disch := decide) only [SessionAccount.serialize, v2OffSettlementAuthority, h,
      Option.map_some, Option.getD_some, field_discriminator, field_vector, field_vector_here,
      Nat.reduceSub]

theorem parse_eq_ok : parse data = .ok a ↔ data.take 8 = sessionDiscriminator ∧
    (data.length = sessionAccountLenV1 ∧ readFields data v1Offsets none = .ok a ∨
      data.length = sessionAccountLenV2 ∧
        readFields data v2Offsets (some (pubkeyAt data v2OffSettlementAuthority)) = .ok a) := by
  have hv : sessionAccountLenV1 = 187 ∧ sessionAccountLenV2 = 219 := ⟨rfl, rfl⟩
  simp only [parse, bind_eq_ok, require_eq_ok, exists_const]
  constructor
  · rintro ⟨-, hhead, h⟩
    split_ifs at h with h₁ h₂
    · exact ⟨hhead, .inl ⟨h₁, h⟩⟩
    · exact ⟨hhead, .inr ⟨h₂, h⟩⟩
  · rintro ⟨hhead, ⟨hlen, h⟩ | ⟨hlen, h⟩⟩
    · rw [if_pos hlen]
      exact ⟨by omega, hhead, h⟩
    · rw [if_neg (by omega), if_pos hlen]
      exact ⟨by omega, hhead, h⟩

theorem parse_serialize (a : SessionAccount) : parse a.serialize = .ok a := by
  have hlen := length_serialize a
  rw [parse_eq_ok]
  refine ⟨List.take_left' rfl, ?_⟩
  rcases h : a.settlementAuthority with _ | authority
  · rw [h, Option.isSome_none, if_neg Bool.false_ne_true] at hlen
    have hread := (placed_v1 h).readFields
    rw [h] at hread
    exact .inl ⟨hlen, hread⟩
  · rw [h, Option.isSome_some, if_pos rfl] at hlen
    have hread := (placed_v2 h).1.readFields
    rw [h, ← bytesAt_of_field (placed_v2 h).2] at hread
    exact .inr ⟨hlen, hread⟩

theorem serialize_injective {b : SessionAccount} (h : a.serialize = b.serialize) : a = b := by
  have ha := parse_serialize a
  rw [h, parse_serialize b] at ha
  exact (Except.ok.inj ha).symm

theorem u64LeBytes_u64At {o : ℕ} (h : o + 8 ≤ data.length) :
    u64LeBytes (u64At data o) = field o 8 data := by
  have hlen := length_field h
  have hlt := ofLeBytes_lt (field o 8 data)
  have hback := leBytes_ofLeBytes (field o 8 data)
  rw [hlen] at hlt hback
  have hword : ofLeBytes (field o 8 data) < 2 ^ 64 := hlt.trans_eq (by decide)
  rw [u64LeBytes, u64At, UInt64.toNat_ofNat', Nat.mod_eq_of_lt hword, hback]

theorem i64LeBytes_i64At {o : ℕ} (h : o + 8 ≤ data.length) :
    i64LeBytes (i64At data o) = field o 8 data := by
  rw [i64LeBytes, i64At, UInt64.toUInt64_toInt64]
  exact u64LeBytes_u64At h

theorem field_u8At {o : ℕ} (h : o + 1 ≤ data.length) : field o 1 data = [u8At data o] := by
  rw [field, List.take_one_drop_eq_of_lt_length (by omega), u8At, List.getD_eq_getElem?_getD,
    List.getElem?_eq_getElem (by omega), Option.getD_some]
  rfl

theorem boolAt_eq_ok {o : ℕ} {b : Bool} (h : boolAt data o = .ok b) :
    u8At data o = if b then 1 else 0 := by
  unfold boolAt at h
  split_ifs at h with h₀ h₁
  · cases h
    exact h₀
  · cases h
    exact h₁

/-- The table stays within `n` bytes. -/
structure Offsets.Within (off : Offsets) (n : ℕ) : Prop where
  keys : 72 ≤ n
  mint : off.mint + 32 ≤ n
  vault : off.vault + 32 ≤ n
  depositedTotal : off.depositedTotal + 8 ≤ n
  cumulativeSettled : off.cumulativeSettled + 8 ≤ n
  refundedTotal : off.refundedTotal + 8 ≤ n
  expiresAt : off.expiresAt + 8 ≤ n
  sessionId : off.sessionId + 16 ≤ n
  bump : off.bump + 1 ≤ n
  vaultBump : off.vaultBump + 1 ≤ n
  isSettled : off.isSettled + 1 ≤ n

theorem placed_of_readFields {off : Offsets} {authority : Option Pubkey}
    (hw : off.Within data.length) (h : readFields data off authority = .ok a) :
    Placed data off a ∧ a.settlementAuthority = authority := by
  simp only [readFields, bind_eq_ok, pure_eq_ok] at h
  rcases h with ⟨flag, hflag, rfl⟩
  refine ⟨⟨?_, ?_, ?_, ?_, ?_, ?_, ?_, ?_, ?_, ?_, ?_, ?_⟩, rfl⟩
  · exact (toList_bytesAt (Nat.le_trans (by decide) hw.keys)).symm
  · exact (toList_bytesAt (Nat.le_trans (by decide) hw.keys)).symm
  · exact (toList_bytesAt hw.mint).symm
  · exact (toList_bytesAt hw.vault).symm
  · exact (u64LeBytes_u64At hw.depositedTotal).symm
  · exact (u64LeBytes_u64At hw.cumulativeSettled).symm
  · exact (u64LeBytes_u64At hw.refundedTotal).symm
  · exact (i64LeBytes_i64At hw.expiresAt).symm
  · exact (toList_bytesAt hw.sessionId).symm
  · exact field_u8At hw.bump
  · exact field_u8At hw.vaultBump
  · rw [field_u8At hw.isSettled, boolAt_eq_ok hflag]

theorem split_v1 (h : data.length = sessionAccountLenV1) : data =
    data.take 8 ++ (field 8 32 data ++ (field 40 32 data ++ (field 72 32 data ++
      (field 104 32 data ++ (field 136 8 data ++ (field 144 8 data ++ (field 152 8 data ++
        (field 160 8 data ++ (field 168 16 data ++ (field 184 1 data ++ (field 185 1 data ++
          field 186 1 data))))))))))) := by
  have hend : data.drop 187 = [] := List.drop_eq_nil_of_le h.le
  conv_lhs => rw [← List.take_append_drop 8 data]
  rw [@drop_eq_field _ _ 8 32 40 rfl, @drop_eq_field _ _ 40 32 72 rfl,
    @drop_eq_field _ _ 72 32 104 rfl, @drop_eq_field _ _ 104 32 136 rfl,
    @drop_eq_field _ _ 136 8 144 rfl, @drop_eq_field _ _ 144 8 152 rfl,
    @drop_eq_field _ _ 152 8 160 rfl, @drop_eq_field _ _ 160 8 168 rfl,
    @drop_eq_field _ _ 168 16 184 rfl, @drop_eq_field _ _ 184 1 185 rfl,
    @drop_eq_field _ _ 185 1 186 rfl, @drop_eq_field _ _ 186 1 187 rfl, hend, List.append_nil]

theorem split_v2 (h : data.length = sessionAccountLenV2) : data =
    data.take 8 ++ (field 8 32 data ++ (field 40 32 data ++ (field 72 32 data ++
      (field 104 32 data ++ (field 136 32 data ++ (field 168 8 data ++ (field 176 8 data ++
        (field 184 8 data ++ (field 192 8 data ++ (field 200 16 data ++ (field 216 1 data ++
          (field 217 1 data ++ field 218 1 data)))))))))))) := by
  have hend : data.drop 219 = [] := List.drop_eq_nil_of_le h.le
  conv_lhs => rw [← List.take_append_drop 8 data]
  rw [@drop_eq_field _ _ 8 32 40 rfl, @drop_eq_field _ _ 40 32 72 rfl,
    @drop_eq_field _ _ 72 32 104 rfl, @drop_eq_field _ _ 104 32 136 rfl,
    @drop_eq_field _ _ 136 32 168 rfl, @drop_eq_field _ _ 168 8 176 rfl,
    @drop_eq_field _ _ 176 8 184 rfl, @drop_eq_field _ _ 184 8 192 rfl,
    @drop_eq_field _ _ 192 8 200 rfl, @drop_eq_field _ _ 200 16 216 rfl,
    @drop_eq_field _ _ 216 1 217 rfl, @drop_eq_field _ _ 217 1 218 rfl,
    @drop_eq_field _ _ 218 1 219 rfl, hend, List.append_nil]

theorem serialize_parse (h : parse data = .ok a) : data = a.serialize := by
  rcases parse_eq_ok.mp h with ⟨hhead, ⟨hlen, hread⟩ | ⟨hlen, hread⟩⟩
  · have hw : v1Offsets.Within data.length := by
      rw [hlen]
      constructor <;> decide
    rcases placed_of_readFields hw hread with ⟨⟨h₁, h₂, h₃, h₄, h₅, h₆, h₇, h₈, h₉, hb, hv, hs⟩, ha⟩
    simp only [v1Offsets, offAgent, offProvider] at h₁ h₂ h₃ h₄ h₅ h₆ h₇ h₈ h₉ hb hv hs
    rw [split_v1 hlen, hhead, h₁, h₂, h₃, h₄, h₅, h₆, h₇, h₈, h₉, hb, hv, hs,
      SessionAccount.serialize, ha]
    rfl
  · have hw : v2Offsets.Within data.length := by
      rw [hlen]
      constructor <;> decide
    rcases placed_of_readFields hw hread with ⟨⟨h₁, h₂, h₃, h₄, h₅, h₆, h₇, h₈, h₉, hb, hv, hs⟩, ha⟩
    have hk : field 72 32 data = (pubkeyAt data v2OffSettlementAuthority).toList :=
      (toList_bytesAt (by rw [hlen]; decide)).symm
    simp only [v2Offsets, offAgent, offProvider] at h₁ h₂ h₃ h₄ h₅ h₆ h₇ h₈ h₉ hb hv hs
    rw [split_v2 hlen, hhead, h₁, h₂, hk, h₃, h₄, h₅, h₆, h₇, h₈, h₉, hb, hv, hs,
      SessionAccount.serialize, ha]
    rfl

theorem parse_iff : parse data = .ok a ↔ data = a.serialize := by
  constructor
  · exact serialize_parse
  · rintro rfl
    exact parse_serialize a

end RoundTrip

/-! ### Reconciliation -/

/-- An account that is reconciled with what was claimed. -/
structure Reconciled (programId : Pubkey) (legacyProgramId : Option Pubkey) (owner : Pubkey)
    (a : SessionAccount) (claimed : ClaimedSession) : Prop where
  recognised : owner = programId ∨ legacyProgramId = some owner
  unsettled : a.isSettled = false
  depositedTotal : a.depositedTotal = claimed.depositedTotal
  agent : a.agent = claimed.agent
  provider : a.provider = claimed.provider
  mint : a.mint = claimed.mint
  expiresAt : a.expiresAt = claimed.expiresAt

def ofError : SettlementRequests.SessionVerificationError → SessionVerificationError
  | .accountNotFound => .accountNotFound
  | .wrongProgramOwner expected actual => .wrongProgramOwner expected actual
  | .notASessionAccount => .notASessionAccount
  | .alreadySettled => .alreadySettled
  | .depositMismatch expected onChain => .depositMismatch expected onChain
  | .fieldMismatch field expected onChain => .fieldMismatch field expected onChain

section Reconciliation
variable {programId owner : Pubkey} {legacyProgramId : Option Pubkey} {fetched : Fetched}
variable {claimed : ClaimedSession} {a : SessionAccount}

theorem verifyOnChainSession_eq_ok :
    verifyOnChainSession programId legacyProgramId fetched claimed = .ok a ↔
      ∃ owner, fetched = some (some (owner, a.serialize)) ∧
        Reconciled programId legacyProgramId owner a claimed := by
  simp only [verifyOnChainSession, bind_eq_ok, okOr_eq_ok, require_eq_ok, pure_eq_ok, Prod.exists,
    parse_iff, exists_const]
  constructor
  · rintro ⟨found, rfl, owner, data, rfl, hown, a', rfl, h₁, h₂, h₃, h₄, h₅, h₆, rfl⟩
    exact ⟨owner, rfl, hown, h₁, h₂, h₃, h₄, h₅, h₆⟩
  · rintro ⟨owner, rfl, h⟩
    exact ⟨_, rfl, owner, _, rfl, h.recognised, a, rfl, h.unsettled, h.depositedTotal, h.agent,
      h.provider, h.mint, h.expiresAt, rfl⟩

/-- On an account of the current program the reconciliation of its bytes is that of its
session. -/
theorem verifyOnChainSession_ofSession {rt : Runtime} {L : EscrowLedger} {session : Pubkey}
    {s : Session} (hs : sessionAt rt L session = some s) (hfunded : (L session).lamports ≠ 0) :
    verifyOnChainSession rt.programId legacyProgramId
        (some (some ((L session).owner, (ofSession s).serialize))) claimed =
      ((SettlementRequests.verifyOnChainSession rt L session claimed).map ofSession).mapError
        ofError := by
  rcases sessionAt_eq_some.mp hs with ⟨howner, hdata⟩
  have hparsed : SettlementRequests.parseSession (L session).data = .ok s := by
    rw [hdata]
    rfl
  simp only [verifyOnChainSession, SettlementRequests.verifyOnChainSession, okOr, ok_bind,
    parse_serialize, hparsed]
  rw [require_bind_of (.inl howner), require_bind_of hfunded, require_bind_of howner]
  simp only [require_bind_maps]
  rfl

end Reconciliation

end AgentPay.SessionLayouts
