import AgentPay.Base58
import AgentPay.Base64
import AgentPay.DecimalStrings

/-!
# The claim header, from the SDK to the gateway

`encodeClaim` of `client.ts` prints a claim as JSON with decimal and base58 strings and
wraps it in base64; the `buy` handler unwraps it and `ClaimWire::decode` reads the strings.
Node's own parts are modelled, `JSON.stringify` with its escapes. The parsers that come
from other crates are parameters, and all that is asked of them is that they read what
their standards write. The claim and the signature arrive as they were sent.
-/
namespace AgentPay.ClaimHeader
open SolanaRuntime EscrowState ClaimMessage GatewayClaims PolicyRules ClaimEncoding Fallible
open Base64 (base64Decode isAsciiWhitespace)
open Base58 (base58Encode base58Decode)
open DecimalStrings (bigintToString parseU64 parseI64 natToString)

structure ClaimWire where
  session : Text
  cumulativeAmount : Text
  nonce : Text
  expiresAt : Text
  signature : Text
deriving DecidableEq

/-! ### The SDK -/

/-- The parts of a client that a claim is made from. The constructor has checked the key. -/
structure ClientKeys where
  sessionB58 : Text
  sessionBytes : List UInt8
  expiresAt : ℤ
  whole : sessionBytes.length = 32

/-- The constructor, as far as it reads the session and the expiry. The defaults of the other
options are left out. -/
def construct (session : Text) (expiresAt : ℤ) : Except JsError ClientKeys := do
  let sessionBytes ← base58Decode session
  if whole : sessionBytes.length = 32 then pure ⟨session, sessionBytes, expiresAt, whole⟩
  else .error (.error ("session " ++ String.ofList session ++ " does not decode to 32 bytes"))

/-- `Signer.sign`, which may throw and may return any bytes. -/
abbrev Signer := List UInt8 → Except JsError (List UInt8)

/-- What `encodeClaim` signs, and the check of what the signer returns. -/
def signClaim (c : ClientKeys) (sign : Signer) (cumulative nonce : ℤ) :
    Except JsError (List UInt8) := do
  let msg ← claimMessage ⟨c.sessionBytes, cumulative, nonce, c.expiresAt⟩
  let signature ← sign msg
  require (signature.length = 64)
    (.error ("signer returned " ++ toString signature.length ++ " bytes, expected 64"))
  pure signature

def hexDigits : Text := ['0', '1', '2', '3', '4', '5', '6', '7', '8', '9', 'a', 'b', 'c', 'd', 'e',
  'f']

/-- A character between the quotes of a JSON string: the five named control characters, the
quote and the backslash, the other control characters by number, and itself. -/
def quoteChar (c : Char) : Text :=
  if c = '\x08' then ['\x5c', 'b']
  else if c = '\t' then ['\x5c', 't']
  else if c = '\n' then ['\x5c', 'n']
  else if c = '\x0c' then ['\x5c', 'f']
  else if c = '\r' then ['\x5c', 'r']
  else if c = '\x22' ∨ c = '\x5c' then ['\x5c', c]
  else if c.toNat < 0x20 then ['\x5c', 'u', '0', '0', hexDigits.getD (c.toNat / 16) '0',
    hexDigits.getD (c.toNat % 16) '0']
  else [c]

def quote (s : Text) : Text := ['\x22'] ++ s.flatMap quoteChar ++ ['\x22']

def sessionKey : Text := ['s', 'e', 's', 's', 'i', 'o', 'n']
def cumulativeAmountKey : Text := ['c', 'u', 'm', 'u', 'l', 'a', 't', 'i', 'v', 'e', '_', 'a', 'm',
  'o', 'u', 'n', 't']
def nonceKey : Text := ['n', 'o', 'n', 'c', 'e']
def expiresAtKey : Text := ['e', 'x', 'p', 'i', 'r', 'e', 's', '_', 'a', 't']
def signatureKey : Text := ['s', 'i', 'g', 'n', 'a', 't', 'u', 'r', 'e']

def jsonMember (key value : Text) : Text := quote key ++ [':'] ++ quote value

/-- `JSON.stringify(wire)`. -/
def stringify (wire : ClaimWire) : Text :=
  ['\x7b'] ++ jsonMember sessionKey wire.session ++
    ([','] ++ jsonMember cumulativeAmountKey wire.cumulativeAmount ++
    ([','] ++ jsonMember nonceKey wire.nonce ++
    ([','] ++ jsonMember expiresAtKey wire.expiresAt ++
    ([','] ++ jsonMember signatureKey wire.signature ++ ['\x7d']))))

/-- `Buffer.from(string)`. -/
def bufferFrom (s : Text) : List UInt8 := s.flatMap String.utf8EncodeChar

def encodeClaim (c : ClientKeys) (sign : Signer) (cumulative nonce : ℤ) : Except JsError Text := do
  let signature ← signClaim c sign cumulative nonce
  let wire : ClaimWire := ⟨c.sessionB58, bigintToString cumulative, bigintToString nonce,
    bigintToString c.expiresAt, base58Encode signature⟩
  pure (Base64.encode (bufferFrom (stringify wire)))

/-! ### The gateway -/

/-- Printable ASCII that JSON does not escape. -/
def Plain (s : Text) : Prop := ∀ c ∈ s, (0x20 ≤ c.toNat ∧ c.toNat < 0x7f) ∧ c ≠ '\x22' ∧ c ≠ '\x5c'

structure ClaimWire.Plain (wire : ClaimWire) : Prop where
  session : ClaimHeader.Plain wire.session
  cumulativeAmount : ClaimHeader.Plain wire.cumulativeAmount
  nonce : ClaimHeader.Plain wire.nonce
  expiresAt : ClaimHeader.Plain wire.expiresAt
  signature : ClaimHeader.Plain wire.signature

/-- `serde_json::from_slice::<ClaimWire>`, `str::parse::<Pubkey>` and `bs58::decode`. -/
structure Parsers where
  fromSlice : List UInt8 → Option ClaimWire
  parsePubkey : Text → Option Pubkey
  bs58Decode : Text → Option (List UInt8)

/-- The parsers read what is written by the standards. -/
structure Parsers.Standard (p : Parsers) : Prop where
  json : ∀ wire : ClaimWire, wire.Plain → p.fromSlice (bufferFrom (stringify wire)) = some wire
  pubkey : ∀ key : Pubkey, p.parsePubkey (Base58.encode key.toList) = some key
  base58 : ∀ bytes, p.bs58Decode (Base58.encode bytes) = some bytes

/-- Which member of a claim could not be read. The handler answers all of them with one code, so
the texts are left out. -/
inductive ClaimDecodeError where
  | session
  | cumulativeAmount
  | nonce
  | expiresAt
  | signature
deriving DecidableEq

/-- `try_into` of a vector to an array. -/
def tryInto (n : ℕ) (bytes : List UInt8) : Option (Vector UInt8 n) :=
  if h : bytes.length = n then some ⟨bytes.toArray, by simpa using h⟩ else none

theorem tryInto_toList {n : ℕ} (v : Vector UInt8 n) : tryInto n v.toList = some v := by
  rw [tryInto, dif_pos Vector.length_toList]
  rfl

/-- `ClaimWire::decode`, member by member in the order of the source, so the first that fails is
the one reported. The parsers of base58 are those of other packages and are parameters. -/
def ClaimWire.decode (p : Parsers) (wire : ClaimWire) :
    Except ClaimDecodeError (Claim × Signature) := do
  let session ← okOr (p.parsePubkey wire.session) .session
  let cumulativeAmount ← okOr (parseU64 wire.cumulativeAmount) .cumulativeAmount
  let nonce ← okOr (parseU64 wire.nonce) .nonce
  let expiresAt ← okOr (parseI64 wire.expiresAt) .expiresAt
  let sigBytes ← okOr (p.bs58Decode wire.signature) .signature
  let signature ← okOr (tryInto 64 sigBytes) .signature
  pure (⟨session, cumulativeAmount, nonce, expiresAt⟩, signature)

/-- The claim of the header, or none where `buy` answers `ERR_MALFORMED_CLAIM`. -/
def readClaimHeader (p : Parsers) (rawClaim : Text) : Option (Claim × Signature) := do
  let decoded ← base64Decode rawClaim
  let wire ← p.fromSlice decoded
  (wire.decode p).toOption

/-! ### What is printed needs no escape -/

section Printing

theorem plain_of_all {s : Text} (h : s.all (fun c => (0x20 ≤ c.toNat ∧ c.toNat < 0x7f) ∧
    c ≠ '\x22' ∧ c ≠ '\x5c') = true) : Plain s := by
  intro c hc
  exact of_decide_eq_true (List.all_eq_true.mp h c hc)

theorem plain_append {s t : Text} (hs : Plain s) (ht : Plain t) : Plain (s ++ t) := by
  intro c hc
  rcases List.mem_append.mp hc with h | h
  · exact hs c h
  · exact ht c h

theorem plain_encode (bytes : List UInt8) : Plain (Base58.encode bytes) := by
  have hall : Plain Base58.alphabet := plain_of_all (by decide)
  exact fun c hc => hall c (Base58.mem_alphabet_of_encode c hc)

theorem plain_natToString (n : ℕ) : Plain (natToString n) := by
  obtain ⟨ds, -, hds, -, hs⟩ := DecimalStrings.natToString_eq n
  rw [hs]
  intro c hc
  obtain ⟨d, hd, rfl⟩ := List.mem_map.mp hc
  have hall : ∀ d : Fin 10, (0x20 ≤ (DecimalStrings.decimal d).toNat ∧
      (DecimalStrings.decimal d).toNat < 0x7f) ∧ DecimalStrings.decimal d ≠ '\x22' ∧
      DecimalStrings.decimal d ≠ '\x5c' := by decide
  exact hall ⟨d, hds d hd⟩

theorem plain_bigintToString (x : ℤ) : Plain (bigintToString x) := by
  have hminus : Plain ['-'] := plain_of_all (by decide)
  unfold bigintToString
  split_ifs
  · exact plain_append hminus (plain_natToString _)
  · exact plain_natToString _

end Printing

/-! ### The claim arrives -/

section Arriving
variable {p : Parsers} {c : Claim} {signature : Signature}

/-- The strings of a claim and its signature. -/
def wireOf (c : Claim) (signature : Signature) : ClaimWire where
  session := Base58.encode c.session.toList
  cumulativeAmount := bigintToString c.cumulativeAmount.toNat
  nonce := bigintToString c.nonce.toNat
  expiresAt := bigintToString c.expiresAt.toInt
  signature := base58Encode signature.toList

theorem signature_encode (signature : Signature) :
    base58Encode signature.toList = Base58.encode signature.toList := by
  apply Base58.base58Encode_eq
  intro h
  have hlen := congrArg List.length h
  simp at hlen

theorem plain_wireOf (c : Claim) (signature : Signature) : (wireOf c signature).Plain where
  session := plain_encode _
  cumulativeAmount := plain_bigintToString c.cumulativeAmount.toNat
  nonce := plain_bigintToString c.nonce.toNat
  expiresAt := plain_bigintToString c.expiresAt.toInt
  signature := by
    rw [wireOf, signature_encode]
    exact plain_encode _

theorem decode_wireOf (hp : p.Standard) : (wireOf c signature).decode p = .ok (c, signature) := by
  have hback : p.bs58Decode (base58Encode signature.toList) = some signature.toList := by
    rw [signature_encode]
    exact hp.base58 _
  simp only [ClaimWire.decode, wireOf, hp.pubkey, hback, DecimalStrings.parseU64_bigintToString,
    DecimalStrings.parseI64_bigintToString, okOr, ok_bind, tryInto_toList]
  rfl

theorem readClaimHeader_wireOf (hp : p.Standard) :
    readClaimHeader p (Base64.encode (bufferFrom (stringify (wireOf c signature)))) =
      some (c, signature) := by
  simp [readClaimHeader, Base64.base64Decode_encode, hp.json _ (plain_wireOf c signature),
    decode_wireOf hp, Except.toOption]

theorem construct_encode (key : Pubkey) (expiresAt : ℤ) :
    construct (Base58.encode key.toList) expiresAt =
      .ok ⟨Base58.encode key.toList, key.toList, expiresAt, Vector.length_toList⟩ := by
  simp only [construct, Base58.base58Decode_encode, ok_bind, Vector.length_toList, ↓reduceDIte]
  rfl

theorem encodeClaim_eq {keys : ClientKeys} {sign : Signer} {cumulative nonce : ℤ}
    (hs : keys.sessionB58 = Base58.encode c.session.toList)
    (hc : cumulative = c.cumulativeAmount.toNat) (hn : nonce = c.nonce.toNat) (he : keys.expiresAt = c.expiresAt.toInt)
    (hok : signClaim keys sign cumulative nonce = .ok signature.toList) :
    encodeClaim keys sign cumulative nonce =
      .ok (Base64.encode (bufferFrom (stringify (wireOf c signature)))) := by
  rw [encodeClaim, hok, ok_bind, hs, hc, hn, he]
  rfl

/-- Whatever header a client manages to make, the gateway reads the client's numbers in it. -/
theorem readClaimHeader_encodeClaim (hp : p.Standard) {keys : ClientKeys} {sign : Signer}
    {cumulative nonce : ℤ} {header : Text} (hs : keys.sessionB58 = Base58.encode keys.sessionBytes)
    (hok : encodeClaim keys sign cumulative nonce = .ok header) : ∃ claim signature,
    readClaimHeader p header = some (claim, signature) ∧ fieldsOf claim =
      ⟨keys.sessionBytes, cumulative, nonce, keys.expiresAt⟩ := by
  have hmade := hok
  simp only [encodeClaim, signClaim, bind_eq_ok, require_eq_ok, pure_eq_ok] at hmade
  obtain ⟨sig, ⟨msg, hmsg, sig', hsign, -, hlen, rfl⟩, -⟩ := hmade
  have hfits := (claimMessage_eq_ok.mp hmsg).1
  obtain ⟨claim, hclaim⟩ := hfits.claim
  refine ⟨claim, ⟨sig'.toArray, by simpa using hlen⟩, ?_, hclaim⟩
  rw [fieldsOf, ClaimFields.mk.injEq] at hclaim
  obtain ⟨hsession, hcum, hnon, hexp⟩ := hclaim
  have hsigned : signClaim keys sign cumulative nonce =
      .ok (Vector.toList ⟨sig'.toArray, by simpa using hlen⟩ : List UInt8) := by
    simp only [signClaim, hmsg, ok_bind, hsign, bind_eq_ok, require_eq_ok, pure_eq_ok, hlen,
      exists_const, true_and]
    rfl
  have heq := encodeClaim_eq (hs.trans (by rw [hsession])) hcum.symm hnon.symm hexp.symm hsigned
  rw [hok, Except.ok.injEq] at heq
  rw [heq]
  exact readClaimHeader_wireOf hp

end Arriving

/-! ### The round trip -/

/-- A client built on the base58 string of the session's key sends a header that the
gateway reads as the very claim and signature, whatever they are. The gateway's decoder
reads any standard base64, padded or not, with any ASCII white space in it. -/
theorem header_round_trips {p : Parsers} (hp : p.Standard) :
    (∀ (c : Claim) (signature : Signature) (sign : Signer),
      sign c.signingBytes = .ok signature.toList → ∃ keys header,
        construct (Base58.encode c.session.toList) c.expiresAt.toInt = .ok keys ∧
        encodeClaim keys sign c.cumulativeAmount.toNat c.nonce.toNat = .ok header ∧
        readClaimHeader p header = some (c, signature)) ∧
      ∀ (bytes : List UInt8) (s : Text),
        (s.filter (fun ch => !isAsciiWhitespace ch) = Base64.encode bytes ∨
          s.filter (fun ch => !isAsciiWhitespace ch) = Base64.encodeUnpadded bytes) →
        base64Decode s = some bytes := by
  constructor
  · intro c signature sign hsign
    have hmessage : claimMessage ⟨c.session.toList, c.cumulativeAmount.toNat, c.nonce.toNat,
        c.expiresAt.toInt⟩ = .ok c.signingBytes := claimMessage_fieldsOf c
    have hsigned : signClaim ⟨Base58.encode c.session.toList, c.session.toList, c.expiresAt.toInt,
        Vector.length_toList⟩ sign c.cumulativeAmount.toNat c.nonce.toNat =
          .ok signature.toList := by
      simp only [signClaim, hmessage, ok_bind, hsign, bind_eq_ok, require_eq_ok, pure_eq_ok,
        Vector.length_toList, exists_const, and_self]
    exact ⟨_, _, construct_encode _ _, encodeClaim_eq rfl rfl rfl rfl hsigned,
      readClaimHeader_wireOf hp⟩
  · intro bytes s hs
    rcases hs with hs | hs
    · exact Base64.base64Decode_encodeWith (fun _ hc => List.mem_singleton.mp hc) hs
    · exact Base64.base64Decode_encodeWith (fun _ hc => absurd hc List.not_mem_nil) hs

/-! ### Parsers for what the SDK prints -/

namespace PlainParsers

def characters (bytes : List UInt8) : Text := bytes.map fun b => Char.ofNat b.toNat

def expect (lit s : Text) : Option Text :=
  if lit.isPrefixOf s then some (s.drop lit.length) else none

/-- A member whose string has no escapes. -/
def readMember (key s : Text) : Option (Text × Text) := do
  let s ← expect (quote key ++ [':', '\x22']) s
  some (s.takeWhile (· ≠ '\x22'), (s.dropWhile (· ≠ '\x22')).tail)

def fromSlice (bytes : List UInt8) : Option ClaimWire := do
  let s ← expect ['\x7b'] (characters bytes)
  let (session, s) ← readMember sessionKey s
  let s ← expect [','] s
  let (cumulativeAmount, s) ← readMember cumulativeAmountKey s
  let s ← expect [','] s
  let (nonce, s) ← readMember nonceKey s
  let s ← expect [','] s
  let (expiresAt, s) ← readMember expiresAtKey s
  let s ← expect [','] s
  let (signature, s) ← readMember signatureKey s
  if s = ['\x7d'] then some ⟨session, cumulativeAmount, nonce, expiresAt, signature⟩ else none

def parsePubkey (s : Text) : Option Pubkey := do
  let bytes ← (base58Decode s).toOption
  tryInto 32 bytes

def parsers : Parsers := ⟨fromSlice, parsePubkey, fun s => (base58Decode s).toOption⟩

section Reading
variable {lit key value rest s : Text}

theorem expect_append : expect lit (lit ++ rest) = some rest := by
  simp [expect]

theorem quoteChar_plain {c : Char} (hc : Plain [c]) : quoteChar c = [c] := by
  obtain ⟨⟨hlow, -⟩, hquote, hslash⟩ := hc c (List.mem_singleton.mpr rfl)
  have hne : ∀ d : Char, d.toNat < 0x20 → c ≠ d := by
    rintro d hd rfl
    omega
  simp [quoteChar, hne '\x08' (by decide), hne '\t' (by decide), hne '\n' (by decide),
    hne '\x0c' (by decide), hne '\r' (by decide), hquote, hslash]
  omega

theorem quote_plain (hs : Plain s) : quote s = ['\x22'] ++ s ++ ['\x22'] := by
  have hflat : s.flatMap quoteChar = s := by
    induction s with
    | nil => rfl
    | cons c s ih =>
      have hc : Plain [c] := by
        intro d hd
        rw [List.mem_singleton.mp hd]
        exact hs c List.mem_cons_self
      rw [List.flatMap_cons, quoteChar_plain hc, ih fun d hd => hs d (List.mem_cons_of_mem _ hd)]
      rfl
  rw [quote, hflat]

theorem readMember_jsonMember (hv : Plain value) :
    readMember key (jsonMember key value ++ rest) = some (value, rest) := by
  have hsplit : jsonMember key value ++ rest =
      (quote key ++ [':', '\x22']) ++ (value ++ '\x22' :: rest) := by
    simp [jsonMember, quote_plain hv]
  have hall : ∀ c ∈ value, (decide (c ≠ '\x22')) = true := fun c hc => by simpa using (hv c hc).2.1
  rw [readMember, hsplit, expect_append]
  simp only [Option.bind_eq_bind, Option.bind_some, List.takeWhile_append_of_pos hall,
    List.dropWhile_append_of_pos hall]
  simp

theorem characters_bufferFrom (hs : ∀ c ∈ s, c.toNat < 0x80) : characters (bufferFrom s) = s := by
  induction s with
  | nil => rfl
  | cons c s ih =>
    have hc : c.toNat < 0x80 := hs c List.mem_cons_self
    have hone : String.utf8EncodeChar c = [UInt8.ofNat c.toNat] := by
      exact if_pos (Nat.le_of_lt_succ hc)
    have htail := ih fun d hd => hs d (List.mem_cons_of_mem _ hd)
    rw [bufferFrom, List.flatMap_cons, hone, ← bufferFrom]
    simp only [characters, List.cons_append, List.nil_append, List.map_cons] at htail ⊢
    rw [htail, UInt8.toNat_ofNat_of_lt' (show c.toNat < 2 ^ 8 by omega), Char.ofNat_toNat]

theorem ascii_jsonMember {key : Text} (hk : Plain key) (hv : Plain value) :
    ∀ c ∈ jsonMember key value, c.toNat < 0x80 := by
  intro c hc
  simp only [jsonMember, quote_plain hk, quote_plain hv, List.mem_append, List.mem_singleton] at hc
  have hplain {t : Text} (ht : Plain t) (h : c ∈ t) : c.toNat < 0x80 := by
    have hlt := (ht c h).1.2
    omega
  rcases hc with (((rfl | h) | rfl) | rfl) | ((rfl | h) | rfl)
  · decide
  · exact hplain hk h
  · decide
  · decide
  · decide
  · exact hplain hv h
  · decide

theorem ascii_stringify {wire : ClaimWire} (hw : wire.Plain) :
    ∀ c ∈ stringify wire, c.toNat < 0x80 := by
  have h₁ : Plain sessionKey := plain_of_all (by decide)
  have h₂ : Plain cumulativeAmountKey := plain_of_all (by decide)
  have h₃ : Plain nonceKey := plain_of_all (by decide)
  have h₄ : Plain expiresAtKey := plain_of_all (by decide)
  have h₅ : Plain signatureKey := plain_of_all (by decide)
  intro c hc
  simp only [stringify, List.mem_append, List.mem_singleton] at hc
  rcases hc with (rfl | h) | (rfl | h) | (rfl | h) | (rfl | h) | (rfl | h) | rfl
  · decide
  · exact ascii_jsonMember h₁ hw.session c h
  · decide
  · exact ascii_jsonMember h₂ hw.cumulativeAmount c h
  · decide
  · exact ascii_jsonMember h₃ hw.nonce c h
  · decide
  · exact ascii_jsonMember h₄ hw.expiresAt c h
  · decide
  · exact ascii_jsonMember h₅ hw.signature c h
  · decide

theorem fromSlice_stringify {wire : ClaimWire} (hw : wire.Plain) :
    fromSlice (bufferFrom (stringify wire)) = some wire := by
  rw [fromSlice, characters_bufferFrom (ascii_stringify hw)]
  simp only [stringify, List.append_assoc, expect_append, Option.bind_eq_bind, Option.bind_some,
    readMember_jsonMember hw.session, readMember_jsonMember hw.cumulativeAmount, readMember_jsonMember hw.nonce,
    readMember_jsonMember hw.expiresAt, readMember_jsonMember hw.signature, if_true]

end Reading

theorem standard : parsers.Standard where
  json := fun _ hw => fromSlice_stringify hw
  pubkey := by
    intro key
    simp [parsers, parsePubkey, Base58.base58Decode_encode, Except.toOption, tryInto_toList]
  base58 := by
    intro bytes
    simp [parsers, Base58.base58Decode_encode, Except.toOption]

/-- A claim that had expired long before 1970, on the system program's key. -/
def claim : Claim := ⟨systemProgramId, UInt64.ofNat (2 ^ 64 - 1), 0, -5⟩

end PlainParsers

theorem header_round_trips_plain : ∃ keys header,
    construct (Base58.encode PlainParsers.claim.session.toList) (-5) = .ok keys ∧
      encodeClaim keys (fun _ => .ok (List.replicate 64 0)) (2 ^ 64 - 1) 0 = .ok header ∧
      readClaimHeader PlainParsers.parsers header =
        some (PlainParsers.claim, Vector.replicate 64 0) :=
  (header_round_trips PlainParsers.standard).1 PlainParsers.claim (Vector.replicate 64 0)
    (fun _ => .ok (List.replicate 64 0)) (by simp)

end AgentPay.ClaimHeader
