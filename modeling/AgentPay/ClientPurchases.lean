import AgentPay.ClaimHeader
import AgentPay.PaidInFull
import AgentPay.UndisturbedSessions
import Mathlib.Data.ENat.Basic

/-!
# The client's counters and the gateway's

`buy` of `client.ts` against the `buy` handler and the layers of `build_router` around it:
the quote, the claim for the new total in its header, the purchase with everything else the
gateway does meanwhile, the answer, and `withRetry` around it. Every request and every answer
is delivered. The handler runs under a deadline: `TimeoutLayer` drops it after fifteen
seconds wherever it stands, and answers 504 with no body, which the client reads as
`ERR_UNKNOWN` and does not retry.

The client advances its counters when it is served and the gateway when it admits the claim;
between the two lie the metering and the request to the provider, and when that request fails,
or the deadline passes before its answer, the counters never agree again.
-/
namespace AgentPay.ClientPurchases
open SolanaRuntime GatewayClaims SessionStore PolicyRules PaidRequests StoreRuns EvidenceRuns
open ClaimEncoding ClaimHeader LoneRequests UndisturbedSessions Fallible Runs

/-- Why a price or a forward cannot be had. The text of an error is left out: it is logged and
does not reach the client, which sees the reason code only. -/
inductive UpstreamError where
  | notConfigured
  | unreachable
  | badCatalogue
  | unknownResource
  | badPrice
deriving DecidableEq

/-- The reason codes of `buy` and of the layers around it. `unknown` is what `errorFrom` makes
of an answer without a reason code, such as that of the deadline. -/
inductive Refusal where
  | denied (code : ReasonCode)
  | malformedClaim
  | upstreamNotConfigured
  | unknownResource
  | upstreamUnavailable
  | rateLimited
  | unknown
deriving DecidableEq

def upstreamDenial : UpstreamError → Refusal
  | .notConfigured => .upstreamNotConfigured
  | .unknownResource => .unknownResource
  | .badPrice | .badCatalogue | .unreachable => .upstreamUnavailable

/-- `AgentPayError.transient`. -/
def Refusal.transient : Refusal → Bool
  | .denied code => code ∈ [.storeUnavailable, .chainUnavailable]
  | .upstreamUnavailable => true
  | _ => false

/-- What a purchase throws: the gateway's refusal, or an error of the SDK's own. Messages are
left out. -/
inductive Failure where
  | refused (refusal : Refusal)
  | threw (e : JsError)
deriving DecidableEq

/-- Only an `AgentPayError` is retried, and only a transient one. -/
def Failure.retryable : Failure → Bool
  | .refused refusal => refusal.transient
  | .threw _ => false

/-- The client with its counters. `retries` may be any number, infinity included. It is used by
one caller at a time: the SDK does not guard its counters against overlapping calls. -/
structure Client where
  keys : ClientKeys
  retries : ℕ∞
  cumulative : ℤ
  nonce : ℤ

def Client.session (c : Client) : Pubkey := ⟨c.keys.sessionBytes.toArray, by simpa using c.keys.whole⟩

/-- What a purchase returns. The payload of the provider and its name are left out. -/
structure Purchase where
  resource : Text
  price : UInt64
  cumulative : ℤ
  upstreamStatus : ℕ
  ok : Bool
deriving DecidableEq

/-- What one attempt meets: the price lookups behind the quote and behind the payment, the
signer, the gateway's clock and random id, and the provider's status. -/
structure World where
  quoted : Except UpstreamError UInt64
  priced : Except UpstreamError UInt64
  sign : Signer
  now : Int64
  approvalId : Text
  upstreamStatus : ℕ

def World.request (w : World) (resource : Text) (price : UInt64) (claim : Claim)
    (signature : Signature) : Request where
  kind := .buy resource price
  claim := claim
  signature := signature
  now := w.now
  approvalId := w.approvalId
  stage := if claim.isExpired w.now then .denied .claimExpired else .received

/-- `buyOnce` up to the store: the quoted price, and the request as the handler decodes it. -/
def sendClaim (p : Parsers) (w : World) (resource : Text) (c : Client) :
    Except Failure (UInt64 × Request) := do
  let price ← w.quoted.mapError fun e => .refused (upstreamDenial e)
  let header ← (encodeClaim c.keys w.sign (c.cumulative + price.toNat) (c.nonce + 1)).mapError .threw
  let asked ← w.priced.mapError fun e => .refused (upstreamDenial e)
  let (claim, signature) ← okOr (readClaimHeader p header) (.refused .malformedClaim)
  pure (price, w.request resource asked claim signature)

def Client.advance (c : Client) (price : UInt64) : Client :=
  { c with cumulative := c.cumulative + price.toNat, nonce := c.nonce + 1 }

def purchase (w : World) (resource : Text) (c : Client) (price : UInt64) : Purchase where
  resource := resource
  price := price
  cumulative := c.cumulative + price.toNat
  upstreamStatus := w.upstreamStatus
  ok := 200 ≤ w.upstreamStatus ∧ w.upstreamStatus < 300

/-- One attempt, with what it returns or throws and the call of the handler that failed or was
cut by the deadline. A handler may be cut before each of its calls; metering comes before the
request to the provider and is no call of its own here, so a purchase that is cut while its row
is written counts as cut at that request. A transaction under way at the deadline is taken to be
made or not made by then. -/
inductive BuyOnce (cfg : Config) (p : Parsers) (w : World) (resource : Text) (c : Client)
    (s : Shared) : Client → Shared → Except Failure Purchase → Option Call → Prop
  | unsent {f : Failure} : sendClaim p w resource c = .error f →
      BuyOnce cfg p w resource c s c s (.error f) none
  | bought {price : UInt64} {r : Request} {s' : Shared} {record : SessionRecord}
      {accepted : ClaimAccepted} {missed : Option Call} :
      sendClaim p w resource c = .ok (price, r) →
      Serving cfg r s s' (.served record accepted) missed →
      BuyOnce cfg p w resource c s (c.advance price) s' (.ok (purchase w resource c price)) missed
  | unserved {price : UInt64} {r : Request} {s' : Shared} {record : SessionRecord}
      {accepted : ClaimAccepted} {missed : Option Call} :
      sendClaim p w resource c = .ok (price, r) →
      Serving cfg r s s' (.unserved record accepted) missed →
      BuyOnce cfg p w resource c s c s' (.error (.refused .upstreamUnavailable)) missed
  | denied {price : UInt64} {r : Request} {s' : Shared} {code : ReasonCode}
      {missed : Option Call} :
      sendClaim p w resource c = .ok (price, r) → Serving cfg r s s' (.denied code) missed →
      BuyOnce cfg p w resource c s c s' (.error (.refused (.denied code))) missed
  /-- The rate limit refuses, or the deadline passes while a price is looked up. -/
  | turnedAway {refusal : Refusal} : refusal = .rateLimited ∨ refusal = .unknown →
      BuyOnce cfg p w resource c s c s (.error (.refused refusal)) none
  | cut {price : UInt64} {r : Request} {s' : Shared} {stage : Stage} {missed : Option Call}
      {call : Call} : sendClaim p w resource c = .ok (price, r) →
      Serving cfg r s s' stage missed → call? stage = some call →
      BuyOnce cfg p w resource c s c s' (.error (.refused .unknown)) (some call)

/-- The client, the gateway's tables, and the call of `buy` that is running: what it buys
and how often it has tried. -/
structure Shopping where
  client : Client
  shared : Shared
  call : Option (Text × ℕ)

inductive ShoppingLabel where
  | elsewhere
  | call (resource : Text)
  | attempt (w : World) (outcome : Except Failure Purchase) (missed : Option Call)

/-- `withRetry`: whether the loop goes round again. The wait before the next attempt is left
out; anything may happen in it. -/
def Client.again (c : Client) (attempt : ℕ) : Except Failure Purchase → Prop
  | .ok _ => False
  | .error f => f.retryable = true ∧ (attempt : ℕ∞) < c.retries

instance (c : Client) (attempt : ℕ) : (o : Except Failure Purchase) → Decidable (c.again attempt o)
  | .ok _ => inferInstanceAs (Decidable False)
  | .error _ => inferInstanceAs (Decidable (_ ∧ _))

/-- The client makes one call at a time and one attempt at a time, and each attempt is one
step. Others may do anything in between that leaves the session of the client alone. -/
inductive ShoppingStep (cfg : Config) (p : Parsers) : Shopping → ShoppingLabel → Shopping → Prop
  | elsewhere {c : Client} {s s' : Shared} {call : Option (Text × ℕ)} :
      Elsewhere cfg c.session s s' → ShoppingStep cfg p ⟨c, s, call⟩ .elsewhere ⟨c, s', call⟩
  | call {c : Client} {s : Shared} {resource : Text} :
      ShoppingStep cfg p ⟨c, s, none⟩ (.call resource) ⟨c, s, some (resource, 0)⟩
  | attempt {c c' : Client} {s s' : Shared} {resource : Text} {n : ℕ} {w : World}
      {outcome : Except Failure Purchase} {missed : Option Call} :
      BuyOnce cfg p w resource c s c' s' outcome missed →
      ShoppingStep cfg p ⟨c, s, some (resource, n)⟩ (.attempt w outcome missed)
        ⟨c', s', if c.again n outcome then some (resource, n + 1) else none⟩

/-- The counters are those of the gateway's record. A record without a nonce yet stands for the
nonce zero, as the constructor has it. -/
def InStep (c : Client) (s : Shared) : Prop :=
  ∃ record, getRecord s.db c.session = .ok record ∧ c.cumulative = record.cumulativeAccepted.toNat ∧
    c.nonce = (record.lastNonce.getD 0).toNat

/-- An attempt that was charged and not served: its request to the provider failed, or the
deadline passed between the admission and the answer. -/
def ForwardLost : ShoppingLabel → Prop
  | .attempt _ _ missed => missed = some .forward
  | _ => False

/-- A refusal that blames the order of the claims or their price. -/
def OutOfStep : Failure → Prop
  | .refused (.denied code) =>
    code = .priceMismatch ∨ code = .claimNotMonotonic ∨ code = .nonceNotMonotonic
  | _ => False

/-! ### One attempt -/

section Sending
variable {p : Parsers} {w : World} {resource : Text} {c : Client} {price : UInt64} {r : Request}

/-- The request carries the client's next numbers, and the price asked when it arrives. -/
structure Carries (w : World) (resource : Text) (c : Client) (price : UInt64) (r : Request) :
    Prop where
  quoted : w.quoted = .ok price
  arrives : Arrives r
  session : r.claim.session = c.session
  cumulative : (r.claim.cumulativeAmount.toNat : ℤ) = c.cumulative + price.toNat
  nonce : (r.claim.nonce.toNat : ℤ) = c.nonce + 1
  asked : ∃ asked, w.priced = .ok asked ∧ r.kind = .buy resource asked

theorem sendClaim_carries (hp : p.Standard)
    (hkeys : c.keys.sessionB58 = Base58.encode c.keys.sessionBytes)
    (h : sendClaim p w resource c = .ok (price, r)) : Carries w resource c price r := by
  simp only [sendClaim, bind_eq_ok, mapError_eq_ok, okOr_eq_ok, pure_eq_ok, Prod.exists,
    Prod.mk.injEq] at h
  obtain ⟨_, hquoted, header, hheader, asked, hasked, claim, signature, hread, rfl, rfl⟩ := h
  obtain ⟨claim', signature', hread', hfields⟩ := readClaimHeader_encodeClaim hp hkeys hheader
  rw [hread, Option.some.injEq, Prod.mk.injEq] at hread'
  obtain ⟨rfl, rfl⟩ := hread'
  rw [fieldsOf, ClaimFields.mk.injEq] at hfields
  obtain ⟨hsession, hcum, hnonce, -⟩ := hfields
  refine ⟨hquoted, rfl, ?_, hcum, hnonce, asked, hasked, rfl⟩
  apply Vector.toList_inj.mp
  rw [World.request, hsession, Client.session]
  rfl

/-- A claim signed as the SDK asks for it is what the gateway is sent. -/
theorem sendClaim_signed {claim : Claim} {signature : Signature} {asked : UInt64} (hp : p.Standard)
    (hquoted : w.quoted = .ok price) (hpriced : w.priced = .ok asked)
    (hkeys : c.keys.sessionB58 = Base58.encode claim.session.toList)
    (hfields : fieldsOf claim =
      ⟨c.keys.sessionBytes, c.cumulative + price.toNat, c.nonce + 1, c.keys.expiresAt⟩)
    (hsign : w.sign claim.signingBytes = .ok signature.toList) :
    sendClaim p w resource c = .ok (price, w.request resource asked claim signature) := by
  have hmessage := claimMessage_fieldsOf claim
  rw [hfields] at hmessage
  rw [fieldsOf, ClaimFields.mk.injEq] at hfields
  obtain ⟨-, hcum, hnonce, hexp⟩ := hfields
  have hsigned : signClaim c.keys w.sign (c.cumulative + price.toNat) (c.nonce + 1) =
      .ok signature.toList := by
    simp only [signClaim, hmessage, ok_bind, hsign, bind_eq_ok, require_eq_ok, pure_eq_ok,
      Vector.length_toList, exists_const, and_self]
  have hheader := encodeClaim_eq hkeys hcum.symm hnonce.symm hexp.symm hsigned
  simp only [sendClaim, hquoted, hpriced, hheader, Except.mapError, ok_bind,
    readClaimHeader_wireOf hp, okOr]
  rfl

end Sending

/-- What an attempt comes to when the record showed `cumulative` and `nonce`: nothing is
charged, or the client and the record move together, or the record alone moves. -/
inductive Leads (cfg : Config) (w : World) (c : Client) (cumulative : UInt64)
    (nonce : Option UInt64) : Client → Shared → Except Failure Purchase → Option Call → Prop
  | unpaid {s' : Shared} {f : Failure} {missed : Option Call} :
      Stands cfg c.session cumulative nonce s'.db → missed ≠ some .forward →
      (∀ price, w.quoted = .ok price → w.priced = .ok price → 0 < price →
        c.cumulative = cumulative.toNat → c.nonce = (nonce.getD 0).toNat → ¬ OutOfStep f) →
      Leads cfg w c cumulative nonce c s' (.error f) missed
  | paid {s' : Shared} {price cumulative' nonce' : UInt64} {o : Purchase} {missed : Option Call} :
      Stands cfg c.session cumulative' (some nonce') s'.db →
      (cumulative'.toNat : ℤ) = c.cumulative + price.toNat → (nonce'.toNat : ℤ) = c.nonce + 1 →
      nonceAdvances nonce nonce' → missed ≠ some .forward →
      Leads cfg w c cumulative nonce (c.advance price) s' (.ok o) missed
  | charged {s' : Shared} {cumulative' nonce' : UInt64} {f : Failure} :
      Stands cfg c.session cumulative' (some nonce') s'.db → (nonce'.toNat : ℤ) = c.nonce + 1 →
      nonceAdvances nonce nonce' → ¬ OutOfStep f →
      Leads cfg w c cumulative nonce c s' (.error f) (some .forward)

section Attempts
variable {cfg : Config} {p : Parsers} {w : World} {resource : Text} {c c' : Client}
variable {s s' : Shared} {outcome : Except Failure Purchase} {missed : Option Call}
variable {cumulative price : UInt64} {nonce : Option UInt64} {r : Request} {code : ReasonCode}

/-- A claim whose numbers follow the record's is not blamed for them. -/
theorem Carries.fair (h : Carries w resource c price r) {asked : UInt64}
    (hasked : w.priced = .ok asked) (he : Explained r.claim asked cumulative nonce code)
    {quoted : UInt64} (hq : w.quoted = .ok quoted) (hsame : w.priced = .ok quoted)
    (hpos : 0 < quoted) (hc : c.cumulative = cumulative.toNat)
    (hn : c.nonce = (nonce.getD 0).toNat) : ¬ OutOfStep (.refused (.denied code)) := by
  have hprice : price = quoted := Except.ok.inj (h.quoted.symm.trans hq)
  have hask : asked = quoted := Except.ok.inj (hasked.symm.trans hsame)
  have hcum := h.cumulative
  have hnonce := h.nonce
  subst hprice hask
  rw [UInt64.lt_iff_toNat_lt] at hpos
  have hzero : (0 : UInt64).toNat = 0 := rfl
  rintro (hcode | hcode | hcode)
  · have hne := he.price hcode
    omega
  · have hle := he.amount hcode
    omega
  · refine he.nonce hcode ?_
    rcases nonce with _ | n
    · exact trivial
    · simp only [Option.getD_some] at hn
      rw [nonceAdvances, UInt64.lt_iff_toNat_lt]
      omega

theorem fair_upstreamDenial (e : UpstreamError) : ¬ OutOfStep (.refused (upstreamDenial e)) := by
  cases e <;> exact not_false

/-- What fails before the store is asked is not blamed on the numbers. -/
theorem sendClaim_error {f : Failure} (h : sendClaim p w resource c = .error f) :
    ¬ OutOfStep f := by
  simp only [sendClaim, bind_eq_error, mapError_eq_error, okOr_eq_error, pure_eq_error] at h
  rcases h with ⟨e, -, rfl⟩ | ⟨price, -, ⟨e, -, rfl⟩ | ⟨header, -, ⟨e, -, rfl⟩ | ⟨asked, -, h⟩⟩⟩
  · exact fair_upstreamDenial e
  · exact not_false
  · exact fair_upstreamDenial e
  · rcases h with ⟨-, rfl⟩ | ⟨_, -, h⟩
    · exact not_false
    · exact absurd h not_false

/-- The purchase a client sends leaves what the handler leaves. -/
theorem leaves_of_sent {stage : Stage} (hp : p.Standard)
    (hkeys : c.keys.sessionB58 = Base58.encode c.keys.sessionBytes)
    (hst : Stands cfg c.session cumulative nonce s.db)
    (hsend : sendClaim p w resource c = .ok (price, r)) (hserve : Serving cfg r s s' stage missed) :
    Carries w resource c price r ∧ ∃ asked, w.priced = .ok asked ∧
      Leaves cfg r.claim asked cumulative nonce s' stage missed := by
  have hcar := sendClaim_carries hp hkeys hsend
  obtain ⟨asked, hasked, hk⟩ := hcar.asked
  rw [← hcar.session] at hst
  exact ⟨hcar, asked, hasked, leaves_serving hcar.arrives hk hst hserve⟩

theorem buyOnce_leads (hp : p.Standard)
    (hkeys : c.keys.sessionB58 = Base58.encode c.keys.sessionBytes)
    (hst : Stands cfg c.session cumulative nonce s.db)
    (h : BuyOnce cfg p w resource c s c' s' outcome missed) :
    Leads cfg w c cumulative nonce c' s' outcome missed := by
  cases h with
  | unsent hf =>
    exact .unpaid hst (Option.some_ne_none _).symm fun _ _ _ _ _ _ => sendClaim_error hf
  | bought hsend hserve =>
    obtain ⟨hcar, asked, -, hleaves⟩ := leaves_of_sent hp hkeys hst hsend hserve
    cases hleaves with
    | waiting _ hacc _ _ => cases hacc
    | admitted hst' hadv _ hm =>
      rw [hcar.session] at hst'
      refine .paid hst' hcar.cumulative hcar.nonce hadv fun hmissed => ?_
      obtain ⟨_, _, hstage⟩ := hm.mp hmissed
      cases hstage
  | unserved hsend hserve =>
    obtain ⟨hcar, asked, -, hleaves⟩ := leaves_of_sent hp hkeys hst hsend hserve
    cases hleaves with
    | waiting _ hacc _ _ => cases hacc
    | admitted hst' hadv _ hm =>
      rw [hcar.session] at hst'
      rw [hm.mpr ⟨_, _, rfl⟩]
      exact .charged hst' hcar.nonce hadv not_false
  | denied hsend hserve =>
    obtain ⟨hcar, asked, hasked, hleaves⟩ := leaves_of_sent hp hkeys hst hsend hserve
    cases hleaves with
    | waiting hst' _ hexplained hm =>
      rw [hcar.session] at hst'
      exact .unpaid hst' hm fun quoted hq hsame hpos hc hn =>
        hcar.fair hasked (hexplained _ rfl) hq hsame hpos hc hn
    | admitted _ _ hacc _ => exact absurd rfl hacc
  | turnedAway hrefusal =>
    refine .unpaid hst (Option.some_ne_none _).symm fun _ _ _ _ _ _ => ?_
    rcases hrefusal with rfl | rfl <;> exact not_false
  | cut hsend hserve hcall =>
    obtain ⟨hcar, asked, -, hleaves⟩ := leaves_of_sent hp hkeys hst hsend hserve
    cases hleaves with
    | waiting hst' hacc _ _ =>
      rw [hcar.session] at hst'
      refine .unpaid hst' (fun hforward => ?_) fun _ _ _ _ _ _ => not_false
      rw [hforward] at hcall
      exact forwards_accepted hcall hacc
    | admitted hst' hadv hacc _ =>
      rw [hcar.session] at hst'
      rw [forward_of_accepted hacc hcall]
      exact .charged hst' hcar.nonce hadv not_false

end Attempts

/-! ### Runs -/

section Running
variable {cfg : Config} {p : Parsers} {x y : Shopping} {l : ShoppingLabel} {c : Client} {s : Shared}

/-- A client whose counters stand behind the record's nonce. -/
def Behind (cfg : Config) (x : Shopping) : Prop :=
  ∃ cumulative nonce, Stands cfg x.client.session cumulative (some nonce) x.shared.db ∧
    x.client.nonce < nonce.toNat

/-- A client in step with tables that are those of a store. -/
structure Level (cfg : Config) (x : Shopping) : Prop where
  intact : Intact cfg.sha256 x.shared.db
  level : InStep x.client x.shared

theorem level_of_stands {cumulative : UInt64} {nonce : Option UInt64}
    (h : Stands cfg x.client.session cumulative nonce x.shared.db)
    (hc : x.client.cumulative = cumulative.toNat)
    (hn : x.client.nonce = (nonce.getD 0).toNat) : Level cfg x := by
  obtain ⟨record, hget, rfl, rfl⟩ := h.record
  exact ⟨h.intact, record, hget, hc, hn⟩

theorem Behind.out_of_step (h : Behind cfg x) : ¬ InStep x.client x.shared := by
  obtain ⟨cumulative, nonce, hst, hlt⟩ := h
  obtain ⟨record, hget, -, hn⟩ := hst.record
  rintro ⟨record', hget', -, heq⟩
  rw [hget, Except.ok.injEq] at hget'
  subst hget'
  rw [hn, Option.getD_some] at heq
  omega

theorem keys_step (h : ShoppingStep cfg p x l y) : y.client.keys = x.client.keys := by
  cases h with
  | elsewhere _ => rfl
  | call => rfl
  | attempt hb =>
    cases hb with
    | unsent | bought | unserved | denied | turnedAway | cut => rfl

variable (hp : p.Standard) (hkeys : x.client.keys.sessionB58 = Base58.encode x.client.keys.sessionBytes)
include hp hkeys

theorem level_step (hx : Level cfg x) (hs : ShoppingStep cfg p x l y) (hl : ¬ ForwardLost l) :
    Level cfg y := by
  obtain ⟨record, hget, hc, hn⟩ := hx.level
  have hst := stands_of_record hx.intact hget
  cases hs with
  | elsewhere he => exact level_of_stands (hst.elsewhere he) hc hn
  | call => exact level_of_stands hst hc hn
  | attempt hb =>
    have hleads := buyOnce_leads hp hkeys hst hb
    dsimp only at hleads
    cases hleads with
    | unpaid hst' _ _ => exact level_of_stands hst' hc hn
    | paid hst' hcum hnonce _ _ => exact level_of_stands hst' hcum.symm hnonce.symm
    | charged _ _ _ _ => exact absurd rfl hl

/-- A purchase that is charged and not served moves the gateway alone. -/
theorem behind_of_forwardLost (hx : Level cfg x) (hs : ShoppingStep cfg p x l y)
    (hl : ForwardLost l) : Behind cfg y := by
  obtain ⟨record, hget, hc, hn⟩ := hx.level
  have hst := stands_of_record hx.intact hget
  cases hs with
  | elsewhere _ => cases hl
  | call => cases hl
  | attempt hb =>
    have hleads := buyOnce_leads hp hkeys hst hb
    dsimp only at hleads
    cases hleads with
    | unpaid _ hm _ => exact absurd hl hm
    | paid _ _ _ _ hm => exact absurd hl hm
    | charged hst' hnonce _ _ =>
      refine ⟨_, _, hst', ?_⟩
      dsimp only
      omega

/-- A client that is behind never pays again, for its next nonce has been used. -/
theorem behind_step (hx : Behind cfg x) (hs : ShoppingStep cfg p x l y) : Behind cfg y := by
  obtain ⟨cumulative, nonce, hst, hlt⟩ := hx
  cases hs with
  | elsewhere he => exact ⟨_, _, hst.elsewhere he, hlt⟩
  | call => exact ⟨_, _, hst, hlt⟩
  | attempt hb =>
    have hleads := buyOnce_leads hp hkeys hst hb
    dsimp only at hleads
    cases hleads with
    | unpaid hst' _ _ => exact ⟨_, _, hst', hlt⟩
    | paid _ _ hnonce hadv _ =>
      rw [nonceAdvances, UInt64.lt_iff_toNat_lt] at hadv
      dsimp only at hlt
      omega
    | charged _ hnonce hadv _ =>
      rw [nonceAdvances, UInt64.lt_iff_toNat_lt] at hadv
      dsimp only at hlt
      omega

end Running

/-- Up to the first such purchase the two are in step, and from it on they are not. -/
theorem level_or_behind {cfg : Config} {p : Parsers} (hp : p.Standard) {x y : Shopping}
    (hkeys : x.client.keys.sessionB58 = Base58.encode x.client.keys.sessionBytes)
    (hx : Level cfg x) {h : History Shopping ShoppingLabel}
    (hr : Run (ShoppingStep cfg p) x h y) :
    y.client.keys = x.client.keys ∧ ((Level cfg y ∧ ∀ t ∈ h, ¬ ForwardLost t.label) ∨
      (Behind cfg y ∧ ∃ t ∈ h, ForwardLost t.label)) := by
  induction hr with
  | start => exact ⟨rfl, .inl ⟨hx, fun t ht => absurd ht List.not_mem_nil⟩⟩
  | @step h y z l hr hs ih =>
    obtain ⟨hsame, ih⟩ := ih
    rw [← hsame] at hkeys
    refine ⟨(keys_step hs).trans hsame, ?_⟩
    rcases ih with ⟨hy, hall⟩ | ⟨hy, t, ht, hfails⟩
    · by_cases hl : ForwardLost l
      · exact .inr ⟨behind_of_forwardLost hp hkeys hy hs hl, _, List.mem_cons_self, hl⟩
      · refine .inl ⟨level_step hp hkeys hy hs hl, fun t ht => ?_⟩
        rcases List.mem_cons.mp ht with rfl | ht
        · exact hl
        · exact hall t ht
    · exact .inr ⟨behind_step hp hkeys hy hs, t, List.mem_cons_of_mem _ ht, hfails⟩

theorem construct_keys {session : Text} {expiresAt : ℤ} {keys : ClientKeys}
    (h : construct session expiresAt = .ok keys) :
    keys.sessionB58 = Base58.encode keys.sessionBytes := by
  simp only [construct, bind_eq_ok] at h
  obtain ⟨bytes, hbytes, h⟩ := h
  split_ifs at h
  cases h
  exact Base58.base58Decode_eq_ok.mp hbytes

/-- However a run goes, client and gateway agree after it exactly when no purchase in it was
charged and not served, for a failed request to the provider or for the deadline; and until
one was, no purchase at a settled positive price is refused for its price or its place in the
order. -/
theorem counters_in_step_iff {cfg : Config} {p : Parsers} (hp : p.Standard) {g : Gateway}
    (hg : GatewayReached cfg g) {session : Text} {expiresAt : ℤ} {c : Client}
    (hc : construct session expiresAt = .ok c.keys) (h₀ : InStep c g.shared)
    {h : History Shopping ShoppingLabel} {t : Shopping}
    (hr : Run (ShoppingStep cfg p) ⟨c, g.shared, none⟩ h t) :
    (InStep t.client t.shared ↔ ∀ x ∈ h, ¬ ForwardLost x.label) ∧
      ((∀ x ∈ h, ¬ ForwardLost x.label) → ∀ x ∈ h, ∀ w f missed price,
        x.label = .attempt w (.error f) missed → w.quoted = .ok price → w.priced = .ok price →
        0 < price → ¬ OutOfStep f) := by
  have hkeys := construct_keys hc
  have hlevel : Level cfg ⟨c, g.shared, none⟩ := ⟨intact_reached hg, h₀⟩
  constructor
  · rcases (level_or_behind hp hkeys hlevel hr).2 with ⟨ht, hall⟩ | ⟨ht, x, hx, hfails⟩
    · exact iff_of_true ht.level hall
    · exact iff_of_false ht.out_of_step fun hall => hall x hx hfails
  · intro hall x hx w f missed price hlabel hquoted hpriced hpos
    obtain ⟨later, earlier, he⟩ := List.append_of_mem hx
    obtain ⟨hbefore, hs⟩ := hr.split he
    have hkept := level_or_behind hp hkeys hlevel hbefore
    have hearlier : ∀ y ∈ earlier, ¬ ForwardLost y.label := fun y hy => hall y (by simp [he, hy])
    rcases hkept with ⟨hsame, ⟨hx', -⟩ | ⟨-, y, hy, hfails⟩⟩
    · rw [← hsame] at hkeys
      obtain ⟨record, hget, hcum, hnonce⟩ := hx'.level
      have hst := stands_of_record hx'.intact hget
      rw [hlabel] at hs
      rcases x with ⟨⟨client, shared, call⟩, label, after⟩
      cases hs with
      | attempt hb =>
        have hleads := buyOnce_leads hp hkeys hst hb
        dsimp only at hleads
        cases hleads with
        | unpaid _ _ hfair => exact hfair price hquoted hpriced hpos hcum hnonce
        | charged _ _ _ hfair => exact hfair
    · exact absurd hfails (hearlier y hy)

namespace Shop
export PaidInFull.Shop (session config record idle buy claim500 signature500)
open PlainParsers (parsers standard)

def opened : Gateway := (playGateway config idle [.outside (.openSession (record session))]).2

theorem opened_reached : GatewayReached config opened :=
  ⟨idle, _, ⟨rfl, rfl⟩, playGateway_run _ _ _⟩

def shopper : Client := ⟨⟨Base58.encode session.toList, session.toList, 4000, by simp⟩, 1, 0, 0⟩

theorem shopper_constructed :
    construct (Base58.encode session.toList) 4000 = .ok shopper.keys := construct_encode _ _

theorem shopper_inStep : InStep shopper opened.shared := ⟨record session, by decide +kernel⟩

/-- The price is 500, and the agent signs. -/
def fair : World := ⟨.ok 500, .ok 500, fun _ => .ok signature500.toList, 2000, ['1'], 200⟩

theorem fair_sends : sendClaim parsers fair ['/', 'a'] shopper =
    .ok (500, buy 500 claim500 signature500) :=
  sendClaim_signed standard rfl rfl rfl rfl rfl

def noFailure : Call → Bool := fun _ => false

theorem noFailure_never (c : Call) : noFailure c = false := rfl

def accepted500 : ClaimAccepted := ⟨500, 0, 500, 1⟩

def served : Shared := (serve config noFailure opened.shared (buy 500 claim500 signature500)).1

theorem served_once : BuyOnce config parsers fair ['/', 'a'] shopper opened.shared
    (shopper.advance 500) served (.ok (purchase fair ['/', 'a'] shopper 500)) none := by
  have hserving := serving_handle config noFailure opened.shared (buy 500 claim500 signature500) 6
  have hstage : (handle config noFailure opened.shared (buy 500 claim500 signature500) 6).2 =
      .served (record session) accepted500 := by decide +kernel
  rw [hstage, missedCall_of_never _ _ _ noFailure_never] at hserving
  exact .bought fair_sends hserving

def unreachable : Call → Bool := fun c => c = .forward

def charged : Shared := (serve config unreachable opened.shared (buy 500 claim500 signature500)).1

theorem charged_once : BuyOnce config parsers fair ['/', 'a'] shopper opened.shared
    shopper charged (.error (.refused .upstreamUnavailable)) (some .forward) := by
  have hserving := serving_handle config unreachable opened.shared (buy 500 claim500 signature500) 6
  have hstage : (handle config unreachable opened.shared (buy 500 claim500 signature500) 6).2 =
      .unserved (record session) accepted500 := by decide +kernel
  have hmissed : missedCall config unreachable opened.shared (buy 500 claim500 signature500) 6 =
      some .forward := by decide +kernel
  rw [hstage, hmissed] at hserving
  exact .unserved fair_sends hserving

def retried : Shared := (serve config noFailure charged (buy 500 claim500 signature500)).1

theorem retried_once : BuyOnce config parsers fair ['/', 'a'] shopper charged
    shopper retried (.error (.refused (.denied .priceMismatch))) none := by
  have hserving := serving_handle config noFailure charged (buy 500 claim500 signature500) 6
  have hstage : (handle config noFailure charged (buy 500 claim500 signature500) 6).2 =
      .denied .priceMismatch := by decide +kernel
  rw [hstage, missedCall_of_never _ _ _ noFailure_never] at hserving
  exact .denied fair_sends hserving

end Shop

theorem counters_in_step_shop : InStep (Shop.shopper.advance 500) Shop.served := by
  have hr := (Run.start.step (@ShoppingStep.call Shop.config PlainParsers.parsers Shop.shopper
    Shop.opened.shared ['/', 'a'])).step (.attempt Shop.served_once)
  refine (counters_in_step_iff PlainParsers.standard Shop.opened_reached Shop.shopper_constructed
    Shop.shopper_inStep hr).1.mpr fun x hx => ?_
  simp only [List.mem_cons, List.not_mem_nil, or_false] at hx
  rcases hx with rfl | rfl
  · exact (Option.some_ne_none _).symm
  · exact not_false

/-- The provider cannot be reached after the claim is admitted. The client tries again with
its old numbers, is refused for the price, and gives up out of step. -/
theorem failed_forward_parts_counters : GatewayReached Shop.config Shop.opened ∧
    construct (Base58.encode Shop.session.toList) 4000 = .ok Shop.shopper.keys ∧
    InStep Shop.shopper Shop.opened.shared ∧ ∃ h,
      Run (ShoppingStep Shop.config PlainParsers.parsers) ⟨Shop.shopper, Shop.opened.shared, none⟩ h
        ⟨Shop.shopper, Shop.retried, none⟩ ∧
      (∃ x ∈ h, x.label = .attempt Shop.fair (.error (.refused (.denied .priceMismatch))) none) ∧
      (getRecord Shop.retried.db Shop.session).map
        (fun r => (r.cumulativeAccepted, r.lastNonce)) = .ok (500, some 1) ∧
      ¬ InStep Shop.shopper Shop.retried := by
  have hrecord : (getRecord Shop.retried.db Shop.session).map
      (fun r => (r.cumulativeAccepted, r.lastNonce)) = .ok (500, some 1) := by decide +kernel
  have hagain : Shop.shopper.again 0 (.error (.refused .upstreamUnavailable)) :=
    ⟨rfl, by simp [Shop.shopper]⟩
  have hstop : ¬ Shop.shopper.again 1 (.error (.refused (.denied .priceMismatch))) := by
    rintro ⟨h, -⟩
    exact absurd h (by decide)
  have hcharged := @ShoppingStep.attempt _ _ _ _ _ _ _ 0 _ _ _ Shop.charged_once
  rw [if_pos hagain] at hcharged
  have hretried := @ShoppingStep.attempt _ _ _ _ _ _ _ 1 _ _ _ Shop.retried_once
  rw [if_neg hstop] at hretried
  refine ⟨Shop.opened_reached, Shop.shopper_constructed, Shop.shopper_inStep, _,
    ((Run.start.step .call).step hcharged).step hretried, ⟨_, List.mem_cons_self, rfl⟩, hrecord, ?_⟩
  rintro ⟨record, hget, hcum, -⟩
  have hsession : Shop.shopper.session = Shop.session := by decide
  rw [hsession] at hget
  rw [hget] at hrecord
  obtain ⟨hamount, -⟩ := Prod.mk.inj (Except.ok.inj hrecord)
  rw [hamount] at hcum
  exact absurd hcum (by decide)

end AgentPay.ClientPurchases
