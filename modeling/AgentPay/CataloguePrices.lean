import AgentPay.CatalogueListings
import AgentPay.RequestPool

/-!
# How old a price can be

`Upstream::catalogue` under concurrency. A lookup reads the cached list, or asks the
provider, waits for its answer, stamps it and takes the lock to store it; other lookups of
the same client move in between, so two answers can be stored in either order. Every list
a lookup ends with was sent by the server the client points at, less than the lifetime of
a cached list and the timeout of a request before.

This is about the price a lookup answers with, at the moment its list is picked. The purchase
that asked for it goes on to the tables and is charged later, if at all; how much later is
bounded by the deadline of the router only, and is not part of what is said here.

The clock is in nanoseconds and shared. A client is never pointed elsewhere: a provider
registered again gets a new client, with nothing cached. What a server answers is
arbitrary; `served` records it. Reading an answer to its end and stamping it are one move,
as there is no waiting in between.
-/
namespace AgentPay.CataloguePrices
open PolicyRules (Text trimEnd)
open ClientPurchases (UpstreamError)
open CatalogueListings Fallible RequestPool Runs

def catalogueTtl : ℕ := 60 * 10 ^ 9
def upstreamTimeout : ℕ := 10 * 10 ^ 9

structure Cached where
  catalogue : Catalogue
  fetched : ℕ

/-- `Upstream`: the client of one provider, with the list it has cached. The HTTP client inside
it and its headers are left out; what a request brings back is arbitrary. -/
structure Client where
  baseUrl : Text
  cached : Option Cached

/-- `Upstream::new`. Slashes at the end of the address are cut off, and nothing is cached yet. -/
def Client.new (url : Text) : Client := ⟨trimEnd (· == '/') url, none⟩

/-- The cached list, while it is trusted. -/
def Client.trusted (c : Client) (now : ℕ) : Option Catalogue :=
  c.cached.bind fun e => if now - e.fetched < catalogueTtl then some e.catalogue else none

/-- What comes back for `/_catalogue`: a body that parses or not, or a failing status. -/
inductive Reply where
  | success (body : Option Catalogue)
  | failure

def Reply.read : Reply → Except UpstreamError Catalogue
  | .success (some cat) => .ok cat
  | .success none => .error .badCatalogue
  | .failure => .error .unreachable

/-- A list a server sent, and when. It is kept for the statements only; no lookup reads it. -/
structure Serving where
  baseUrl : Text
  sentAt : ℕ
  catalogue : Catalogue

structure Shared where
  now : ℕ
  clients : List Client
  served : List Serving

def Shared.serve (s : Shared) (url : Text) : Reply → Shared
  | .success (some cat) => { s with served := ⟨url, s.now, cat⟩ :: s.served }
  | _ => s

def Shared.store (s : Shared) (k : ℕ) (c : Client) (e : Cached) : Shared :=
  { s with clients := s.clients.set k { c with cached := some e } }

/-- Where a lookup is. A finished one keeps the moment its list was decided. -/
inductive Phase where
  | started
  | asked (sent : ℕ)
  | replied (sent : ℕ) (reply : Reply)
  | stamped (catalogue : Catalogue) (fetched : ℕ)
  | done (decided : ℕ) (result : Except UpstreamError Catalogue)

/-- A lookup through the client of this number. -/
structure Lookup where
  client : ℕ
  resource : Text
  phase : Phase

def Lookup.to (l : Lookup) (phase : Phase) : Lookup := { l with phase := phase }

def Arrives (l : Lookup) : Prop := l.phase = .started

/-- One step of a lookup between two places where it waits. A request may be lost at any
time, by an error, by the deadline of the client or because its purchase is dropped. -/
inductive Move (s : Shared) (l : Lookup) : Shared → Lookup → Prop
  | hit {c : Client} {cat : Catalogue} : s.clients[l.client]? = some c → l.phase = .started →
      c.trusted s.now = some cat → Move s l s (l.to (.done s.now (.ok cat)))
  | miss {c : Client} : s.clients[l.client]? = some c → l.phase = .started →
      c.trusted s.now = none → Move s l s (l.to (.asked s.now))
  | reply {c : Client} {sent : ℕ} (reply : Reply) : s.clients[l.client]? = some c →
      l.phase = .asked sent → Move s l (s.serve c.baseUrl reply) (l.to (.replied sent reply))
  | refused {sent : ℕ} {reply : Reply} {e : UpstreamError} : l.phase = .replied sent reply →
      s.now < sent + upstreamTimeout → reply.read = .error e →
      Move s l s (l.to (.done s.now (.error e)))
  | received {sent : ℕ} {reply : Reply} {cat : Catalogue} : l.phase = .replied sent reply →
      s.now < sent + upstreamTimeout → reply.read = .ok cat →
      Move s l s (l.to (.stamped cat s.now))
  | lost {sent : ℕ} : (l.phase = .asked sent ∨ ∃ reply, l.phase = .replied sent reply) →
      Move s l s (l.to (.done s.now (.error .unreachable)))
  | stored {c : Client} {cat : Catalogue} {fetched : ℕ} : s.clients[l.client]? = some c →
      l.phase = .stamped cat fetched →
      Move s l (s.store l.client c ⟨cat, fetched⟩) (l.to (.done fetched (.ok cat)))

/-- Time passes, or a client is built, with nothing cached. The clock is one for the gateway and
the providers, and never goes back. -/
inductive Event where
  | tick (d : ℕ)
  | connect (url : Text)

def outside (s : Shared) : Event → Shared
  | .tick d => { s with now := s.now + d }
  | .connect url => { s with clients := s.clients ++ [.new url] }

def Outside (s : Shared) (e : Event) (s' : Shared) : Prop := s' = outside s e

abbrev Lookups := Pool Shared Lookup

/-- The gateway before its first client is built. -/
def fresh (now : ℕ) : Lookups := ⟨⟨now, [], []⟩, []⟩

abbrev LookupStep := Step Arrives Move Outside

/-- `Upstream::price_of`, when the lookup has ended. -/
def Phase.price (resource : Text) : Phase → Option (Except UpstreamError UInt64)
  | .done _ result => some (result.bind fun cat => priceOf cat resource)
  | _ => none

/-- The server of this client sent the list, at a moment that satisfies `p`. -/
def Vouched (s : Shared) (k : ℕ) (cat : Catalogue) (p : ℕ → Prop) : Prop :=
  ∃ c, s.clients[k]? = some c ∧
    ∃ e ∈ s.served, e.baseUrl = c.baseUrl ∧ e.catalogue = cat ∧ p e.sentAt

/-- What a lookup knows in each phase: when it asked, what it was sent, and that a list it holds
was sent by the server its client points at, at a time that is bounded from below. -/
def Knows (s : Shared) (l : Lookup) : Prop :=
  match l.phase with
  | .started => True
  | .asked sent => sent ≤ s.now
  | .replied sent reply => ∀ cat, reply.read = .ok cat →
      Vouched s l.client cat fun t => sent ≤ t ∧ t ≤ s.now
  | .stamped cat fetched => fetched ≤ s.now ∧
      Vouched s l.client cat fun t => t ≤ fetched ∧ fetched < t + upstreamTimeout
  | .done decided result => ∀ cat, result = .ok cat →
      Vouched s l.client cat fun t => t ≤ decided ∧ decided < t + (catalogueTtl + upstreamTimeout)

/-- A cached list is stamped within the timeout of the moment it was sent. -/
def CacheSound (s : Shared) : Prop :=
  ∀ (k : ℕ) (c : Client) (e : Cached), s.clients[k]? = some c → c.cached = some e →
    e.fetched ≤ s.now ∧
      Vouched s k e.catalogue fun t => t ≤ e.fetched ∧ e.fetched < t + upstreamTimeout

structure Grows (s s' : Shared) : Prop where
  now : s.now ≤ s'.now
  served : s.served ⊆ s'.served
  clients : ∀ (k : ℕ) (c : Client), s.clients[k]? = some c →
    ∃ c', s'.clients[k]? = some c' ∧ c'.baseUrl = c.baseUrl

section Growth
variable {s s' : Shared} {l l' : Lookup} {k : ℕ} {cat : Catalogue} {p q : ℕ → Prop}

theorem Grows.refl (s : Shared) : Grows s s :=
  ⟨Nat.le_refl _, List.Subset.refl _, fun _ c h => ⟨c, h, rfl⟩⟩

theorem Vouched.mono (h : Vouched s k cat p) (hg : Grows s s') (hpq : ∀ t, p t → q t) :
    Vouched s' k cat q := by
  obtain ⟨c, hc, e, he, hurl, hcat, hp⟩ := h
  obtain ⟨c', hc', hurl'⟩ := hg.clients k c hc
  exact ⟨c', hc', e, hg.served he, hurl.trans hurl'.symm, hcat, hpq _ hp⟩

theorem Knows.mono (h : Knows s l) (hg : Grows s s') : Knows s' l := by
  have hnow := hg.now
  unfold Knows at h ⊢
  split at h
  · trivial
  · exact h.trans hnow
  · exact fun cat hcat => (h cat hcat).mono hg fun t ht => ⟨ht.1, ht.2.trans hnow⟩
  · exact ⟨h.1.trans hnow, h.2.mono hg fun t ht => ht⟩
  · exact fun cat hcat => (h cat hcat).mono hg fun t ht => ht

theorem grows_serve (url : Text) (r : Reply) : Grows s (s.serve url r) := by
  unfold Shared.serve
  split
  · exact ⟨Nat.le_refl _, List.subset_cons_self _ _, fun _ c h => ⟨c, h, rfl⟩⟩
  · exact .refl s

theorem grows_store {c : Client} {e : Cached} (hc : s.clients[k]? = some c) :
    Grows s (s.store k c e) := by
  refine ⟨Nat.le_refl _, List.Subset.refl _, ?_⟩
  intro j x hx
  by_cases hj : j = k
  · subst hj
    obtain rfl : c = x := Option.some.inj (hc.symm.trans hx)
    have hlt := (List.getElem?_eq_some_iff.mp hc).1
    exact ⟨{ c with cached := some e }, by simp [Shared.store, hlt], rfl⟩
  · exact ⟨x, by simp [Shared.store, Ne.symm hj, hx], rfl⟩

theorem grows_outside (e : Event) : Grows s (outside s e) := by
  cases e with
  | tick d => exact ⟨Nat.le_add_right _ _, List.Subset.refl _, fun _ c h => ⟨c, h, rfl⟩⟩
  | connect url =>
    refine ⟨Nat.le_refl _, List.Subset.refl _, fun j c h => ⟨c, ?_, rfl⟩⟩
    have hlt := (List.getElem?_eq_some_iff.mp h).1
    simpa only [outside, List.getElem?_append_left hlt] using h

theorem grows_move (h : Move s l s' l') : Grows s s' := by
  cases h with
  | reply r hc hp => exact grows_serve _ r
  | stored hc hp => exact grows_store hc
  | hit => exact .refl s
  | miss => exact .refl s
  | refused => exact .refl s
  | received => exact .refl s
  | lost => exact .refl s

/-- Caches that were there before are as sound after. -/
theorem CacheSound.mono (h : CacheSound s) (hg : Grows s s')
    (hold : ∀ (k : ℕ) (c : Client) (e : Cached), s'.clients[k]? = some c → c.cached = some e →
      ∃ c₀ : Client, s.clients[k]? = some c₀ ∧ c₀.cached = some e) : CacheSound s' := by
  intro k c e hc he
  obtain ⟨c₀, hc₀, he₀⟩ := hold k c e hc he
  obtain ⟨hfetched, hsent⟩ := h k c₀ e hc₀ he₀
  exact ⟨hfetched.trans hg.now, hsent.mono hg fun t ht => ht⟩

theorem cacheSound_move (hs : CacheSound s) (hk : Knows s l) (h : Move s l s' l') :
    CacheSound s' := by
  have hg := grows_move h
  cases h with
  | reply r hc hp =>
    refine hs.mono hg fun k c e hc he => ⟨c, ?_, he⟩
    unfold Shared.serve at hc
    split at hc
    · exact hc
    · exact hc
  | @stored c cat fetched hc hp =>
    intro k x e hx he
    rcases getElem?_set_cases hx with ⟨rfl, rfl⟩ | ⟨-, hx⟩
    · obtain rfl := Option.some.inj he
      unfold Knows at hk
      rw [hp] at hk
      exact ⟨hk.1, hk.2.mono hg fun t ht => ht⟩
    · obtain ⟨hfetched, hsent⟩ := hs k x e hx he
      exact ⟨hfetched, hsent.mono hg fun t ht => ht⟩
  | hit => exact hs
  | miss => exact hs
  | refused => exact hs
  | received => exact hs
  | lost => exact hs

theorem knows_move (hs : CacheSound s) (hk : Knows s l) (h : Move s l s' l') : Knows s' l' := by
  have hg := grows_move h
  cases h with
  | @hit c cat hc hp ht =>
    intro x hx
    obtain rfl := Except.ok.inj hx
    obtain ⟨e, he, hte⟩ := Option.bind_eq_some_iff.mp ht
    split_ifs at hte with hage
    obtain rfl := Option.some.inj hte
    obtain ⟨hfetched, hsent⟩ := hs _ c e hc he
    exact hsent.mono hg fun t ht => ⟨by omega, by omega⟩
  | miss hc hp ht => exact Nat.le_refl _
  | @reply c sent r hc hp =>
    intro cat hcat
    unfold Knows at hk
    rw [hp] at hk
    rcases r with (_ | cat') | _
    · cases hcat
    · obtain rfl := Except.ok.inj hcat
      exact ⟨c, hc, _, List.mem_cons_self, rfl, rfl, hk, Nat.le_refl _⟩
    · cases hcat
  | refused hp hlt he =>
    intro cat hcat
    cases hcat
  | @received sent r cat hp hlt hcat =>
    unfold Knows at hk
    rw [hp] at hk
    exact ⟨Nat.le_refl _, (hk cat hcat).mono hg fun t ht => ⟨ht.2, by omega⟩⟩
  | lost hp =>
    intro cat hcat
    cases hcat
  | @stored c cat fetched hc hp =>
    intro x hx
    obtain rfl := Except.ok.inj hx
    unfold Knows at hk
    rw [hp] at hk
    exact hk.2.mono hg fun t ht => ⟨ht.1, by omega⟩

end Growth

/-- The invariant of the pool of lookups. -/
def PoolSound (p : Lookups) : Prop := CacheSound p.shared ∧ Each Knows p

theorem poolSound_fresh (now : ℕ) : PoolSound (fresh now) := by
  refine ⟨?_, Each.of_idle rfl⟩
  intro k c e hc
  simp [fresh] at hc

theorem poolSound_step {p q : Lookups} {i : Label Lookup Event} (hp : PoolSound p)
    (h : LookupStep p i q) : PoolSound q := by
  have hg : Grows p.shared q.shared := by
    cases h with
    | arrive ha => exact .refl _
    | advance hr hm => exact grows_move hm
    | outside ho =>
      rw [ho]
      exact grows_outside _
  constructor
  · cases h with
    | arrive ha => exact hp.1
    | advance hr hm => exact cacheSound_move hp.1 (hp.2 _ _ hr) hm
    | @outside s s' rs e ho =>
      refine hp.1.mono hg fun k c x hc hx => ⟨c, ?_, hx⟩
      rw [ho] at hc
      cases e with
      | tick d => exact hc
      | connect url =>
        simp only [outside] at hc
        rcases getElem?_append_singleton hc with hc | rfl
        · exact hc
        · cases hx
  · refine h.each hp.2 ?_ ?_ ?_
    · intro l hl
      unfold Knows
      rw [hl]
      trivial
    · intro n l l' _ _ hm hk
      exact knows_move hp.1 hk hm
    · intro n l _ hk
      exact hk.mono hg

/-- A price a lookup ended with, against what the provider's server was sending. -/
structure Published (s : Shared) (l : Lookup) (decided : ℕ) (price : UInt64) : Prop where
  sent : ∃ c, s.clients[l.client]? = some c ∧ ∃ e ∈ s.served, e.baseUrl = c.baseUrl ∧
    e.sentAt ≤ decided ∧ decided < e.sentAt + 70 * 10 ^ 9 ∧
    priceOf e.catalogue l.resource = .ok price
  settled : ∀ c, s.clients[l.client]? = some c → ∀ since current,
    since + 70 * 10 ^ 9 ≤ decided →
    (∀ e ∈ s.served, e.baseUrl = c.baseUrl → since ≤ e.sentAt →
      priceOf e.catalogue l.resource = .ok current) → price = current

/-- However lookups interleave, the price of a lookup was published by the provider's own server
less than seventy seconds before its list was picked, so a price the server has sent for that
long is the only one a lookup answers with. When a purchase is charged is not said. -/
theorem prices_are_published {p : Lookups} {h : History Lookups (Label Lookup Event)} {now n : ℕ}
    {l : Lookup} {decided : ℕ} {result : Except UpstreamError Catalogue} {price : UInt64}
    (hr : Run LookupStep (fresh now) h p) (hl : p.requests[n]? = some l)
    (hdone : l.phase = .done decided result)
    (hprice : l.phase.price l.resource = some (.ok price)) :
    Published p.shared l decided price := by
  have hsound : PoolSound p :=
    hr.invariant_all (fun _ _ _ hI hs => poolSound_step hI hs) (poolSound_fresh now)
  have hknows := hsound.2 n l hl
  unfold Knows at hknows
  rw [hdone] at hknows hprice
  obtain ⟨cat, rfl, hcat⟩ : ∃ cat, result = .ok cat ∧ priceOf cat l.resource = .ok price :=
    bind_eq_ok.mp (Option.some.inj hprice)
  obtain ⟨c, hc, e, he, hurl, rfl, hle, hlt⟩ := hknows cat rfl
  have hbound : catalogueTtl + upstreamTimeout = 70 * 10 ^ 9 := rfl
  rw [hbound] at hlt
  refine ⟨⟨c, hc, e, he, hurl, hle, hlt, hcat⟩, ?_⟩
  intro c' hc' since current hsince hcurrent
  obtain rfl : c = c' := Option.some.inj (hc.symm.trans hc')
  have hnew := hcurrent e he hurl (by omega)
  exact Except.ok.inj (hcat.symm.trans hnew)

/-! ### One lookup -/
namespace Stall

def url : Text := "http://a".toList
def weather : Text := "/w".toList

def catalogue : Catalogue where
  provider := []
  resources := [(weather, ⟨"1000".toList, []⟩)]
  distinct := by simp

def client : Client := .new url
def asking (phase : Phase) : Lookup := ⟨0, weather, phase⟩
def sent : List Serving := [⟨client.baseUrl, 0, catalogue⟩]
def bought : Lookups :=
  ⟨⟨0, [{ client with cached := some ⟨catalogue, 0⟩ }], sent⟩, [asking (.done 0 (.ok catalogue))]⟩

theorem arrives_asking : Arrives (asking .started) := rfl

theorem run_bought : ∃ h, Run LookupStep (fresh 0) h bought := by
  have hconnect : Run LookupStep (fresh 0) _ ⟨⟨0, [client], []⟩, []⟩ :=
    Run.start.step (i := .outside (.connect url)) (.outside rfl)
  have harrive : Run LookupStep (fresh 0) _ ⟨⟨0, [client], []⟩, [asking .started]⟩ :=
    hconnect.step (i := .arrive (asking .started)) (.arrive arrives_asking)
  have hmiss : Run LookupStep (fresh 0) _ ⟨⟨0, [client], []⟩, [asking (.asked 0)]⟩ :=
    harrive.step (i := .advance 0) (.advance rfl (.miss rfl rfl rfl))
  have hreply : Run LookupStep (fresh 0) _
      ⟨⟨0, [client], sent⟩, [asking (.replied 0 (.success (some catalogue)))]⟩ :=
    hmiss.step (i := .advance 0) (.advance rfl (.reply (.success (some catalogue)) rfl rfl))
  have hread : Run LookupStep (fresh 0) _
      ⟨⟨0, [client], sent⟩, [asking (.stamped catalogue 0)]⟩ :=
    hreply.step (i := .advance 0) (.advance rfl (.received rfl (by decide) rfl))
  exact ⟨_, hread.step (i := .advance 0) (.advance rfl (.stored rfl rfl))⟩

end Stall

theorem prices_are_published_stall :
    Published Stall.bought.shared (Stall.asking (.done 0 (.ok Stall.catalogue))) 0 1000 := by
  obtain ⟨h, hr⟩ := Stall.run_bought
  have hl : Stall.bought.requests[0]? = some (Stall.asking (.done 0 (.ok Stall.catalogue))) := rfl
  exact prices_are_published hr hl rfl (by decide +kernel)

end AgentPay.CataloguePrices
