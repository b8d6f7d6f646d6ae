import AgentPay.AffordablePurchases
import AgentPay.Trimming
import AgentPay.Workspaces

/-!
# What the registry lists and what can be priced

`Registry::aggregate` and `price_of` over one catalogue. The listing normalises the keys a
provider publishes; `price_of` normalises the request and looks it up among the keys as
they were published. A key that is not spelled the normal way is therefore listed under a
path that cannot be bought, unless the normal spelling is published beside it, and two
spellings of one path are listed with two prices.

A catalogue is the list of its entries in the order the map yields them. The descriptions
of errors are left as values.
-/
namespace AgentPay.CatalogueListings
open PolicyRules (Text trimStart trimEnd)
open ClientPurchases (UpstreamError)
open AffordablePurchases (normaliseResource)
open Workspaces (ProviderRecord)
open DecimalStrings (parseU64)
open Fallible

structure ResourcePrice where
  price : Text
  description : Text
deriving DecidableEq

/-- A price list: a map from the keys a provider publishes, so none stands in it twice. The name
the provider gives itself is carried along and read by nobody. -/
structure Catalogue where
  provider : Text
  resources : List (Text × ResourcePrice)
  distinct : (resources.map Prod.fst).Nodup

def Catalogue.get (cat : Catalogue) (key : Text) : Option ResourcePrice := cat.resources.lookup key

/-- The catalogue as the pricing of a purchase sees it. -/
def Catalogue.lookups (cat : Catalogue) : AffordablePurchases.Catalogue where
  resources key := (cat.get key).map fun p => ⟨p.price⟩

/-- `Upstream::price_of`, on the catalogue it has cached. The fetch that comes before it, where
the cache is too old, is a lookup in `CataloguePrices`. -/
def priceOf (cat : Catalogue) (resource : Text) : Except UpstreamError UInt64 := do
  let entry ← okOr (cat.get (normaliseResource resource)) .unknownResource
  okOr (parseU64 entry.price) .badPrice

structure CatalogueEntry where
  providerId : Text
  providerLabel : Text
  resource : Text
  price : Text
  description : Text
deriving DecidableEq

/-- A provider whose list could not be had, with the reason as a value where the answer has a
sentence. -/
structure ProviderError where
  providerId : Text
  baseUrl : Text
  error : UpstreamError
deriving DecidableEq

structure AggregateCatalogue where
  entries : List CatalogueEntry
  unavailable : List ProviderError

/-- The providers of the registry with what each answers when its catalogue is read. -/
abbrev Answers := List (ProviderRecord × Except UpstreamError Catalogue)

def entriesOf (record : ProviderRecord) (cat : Catalogue) : List CatalogueEntry :=
  cat.resources.map fun e =>
    ⟨record.providerId, record.label, normaliseResource e.1, e.2.price, e.2.description⟩

/-- What one provider adds to the listing. -/
def listed : ProviderRecord × Except UpstreamError Catalogue → List CatalogueEntry
  | (record, .ok cat) => entriesOf record cat
  | (_, .error _) => []

def failed : ProviderRecord × Except UpstreamError Catalogue → List ProviderError
  | (_, .ok _) => []
  | (record, .error e) => [⟨record.providerId, record.baseUrl, e⟩]

/-- A price that is no number sorts last. -/
def priceRank (e : CatalogueEntry) : ℕ :=
  ((parseU64 e.price).getD (UInt64.ofNat (2 ^ 64 - 1))).toNat

/-- Cheapest first, then by provider. -/
def cheaper (a b : CatalogueEntry) : Prop :=
  priceRank a < priceRank b ∨ priceRank a = priceRank b ∧ ¬b.providerId < a.providerId

instance : DecidableRel cheaper := fun a b =>
  haveI : Decidable (b.providerId < a.providerId) := List.decidableLT _ _
  inferInstanceAs (Decidable (priceRank a < priceRank b ∨
    priceRank a = priceRank b ∧ ¬b.providerId < a.providerId))

/-- `Registry::aggregate`: every enabled provider, merged. The source asks them one after the
other and lists those that fail; here the answers are given. -/
def aggregate (providers : Answers) : AggregateCatalogue where
  entries := ((providers.filter fun p => p.1.enabled).flatMap listed).insertionSort cheaper
  unavailable := (providers.filter fun p => p.1.enabled).flatMap failed

/-! ### Paths without outer slashes -/

/-- Neither begins nor ends with a slash. -/
def Bare (t : Text) : Prop := trimStart (· == '/') t = t ∧ trimEnd (· == '/') t = t

instance (t : Text) : Decidable (Bare t) :=
  inferInstanceAs (Decidable (trimStart (· == '/') t = t ∧ trimEnd (· == '/') t = t))

section Paths
variable {r t : Text}

theorem bare_trim (t : Text) : Bare (trimEnd (· == '/') (trimStart (· == '/') t)) :=
  ⟨Trimming.dropWhile_prefix (List.dropWhile_idempotent _ t) (List.rdropWhile_prefix _ _),
    List.rdropWhile_idempotent _ _⟩

theorem normaliseResource_bare (h : Bare t) : normaliseResource ('/' :: t) = '/' :: t := by
  have hstart : trimStart (· == '/') ('/' :: t) = trimStart (· == '/') t := rfl
  rw [normaliseResource, hstart, h.1, h.2]

theorem normaliseResource_eq_self_iff : normaliseResource r = r ↔ ∃ t, Bare t ∧ r = '/' :: t := by
  constructor
  · intro h
    exact ⟨_, bare_trim r, h.symm⟩
  · rintro ⟨t, ht, rfl⟩
    exact normaliseResource_bare ht

@[simp] theorem normaliseResource_normaliseResource :
    normaliseResource (normaliseResource r) = normaliseResource r :=
  normaliseResource_bare (bare_trim r)

end Paths

/-! ### What is listed -/

theorem lookup_eq_some {α β : Type} [BEq α] [LawfulBEq α] {k : α} {p : β} {l : List (α × β)}
    (hl : (l.map Prod.fst).Nodup) : l.lookup k = some p ↔ (k, p) ∈ l := by
  induction l with
  | nil => simp
  | cons e l ih =>
    obtain ⟨k', p'⟩ := e
    obtain ⟨hfresh, hl⟩ := List.nodup_cons.mp hl
    rw [List.lookup_cons, List.mem_cons, Prod.mk.injEq]
    rcases hk : k == k' with _ | _
    · have hne : k ≠ k' := beq_eq_false_iff_ne.mp hk
      simp only [hne, false_and, false_or, ih hl]
    · obtain rfl : k = k' := eq_of_beq hk
      have hnot : (k, p) ∉ l := fun h => hfresh (List.mem_map.mpr ⟨_, h, rfl⟩)
      simp only [hnot, true_and, or_false, Option.some.injEq, eq_comm]

section Listing
variable {providers : Answers} {record : ProviderRecord} {cat : Catalogue} {e : CatalogueEntry}
variable {k r : Text} {p : ResourcePrice} {u : UInt64}

theorem Catalogue.get_eq_some : cat.get k = some p ↔ (k, p) ∈ cat.resources :=
  lookup_eq_some cat.distinct

/-- The price a purchase pays is read from the same entry. -/
theorem priceOf_eq : priceOf cat r = AffordablePurchases.priceOf (.ok cat.lookups) r := by
  rw [priceOf, AffordablePurchases.priceOf, ok_bind]
  rcases h : cat.get (normaliseResource r) with _ | p
  · simp only [Catalogue.lookups, h, Option.map_none, okOr, error_bind]
  · simp only [Catalogue.lookups, h, Option.map_some, okOr, ok_bind]

theorem priceOf_eq_ok : priceOf cat r = .ok u ↔
    ∃ p, (normaliseResource r, p) ∈ cat.resources ∧ parseU64 p.price = some u := by
  simp only [priceOf, bind_eq_ok, okOr_eq_ok, Catalogue.get_eq_some]

theorem mem_entriesOf : e ∈ entriesOf record cat ↔
    ∃ k p, (k, p) ∈ cat.resources ∧
      e = ⟨record.providerId, record.label, normaliseResource k, p.price, p.description⟩ := by
  simp only [entriesOf, List.mem_map, Prod.exists, eq_comm]

theorem mem_aggregate : e ∈ (aggregate providers).entries ↔
    ∃ record cat, (record, .ok cat) ∈ providers ∧ record.enabled ∧ e ∈ entriesOf record cat := by
  simp only [aggregate, List.mem_insertionSort, List.mem_flatMap, List.mem_filter, Prod.exists]
  constructor
  · rintro ⟨record, answer, ⟨hmem, hen⟩, he⟩
    rcases answer with err | cat
    · cases he
    · exact ⟨record, cat, hmem, hen, he⟩
  · rintro ⟨record, cat, hmem, hen, he⟩
    exact ⟨record, .ok cat, ⟨hmem, hen⟩, he⟩

instance : Std.Total cheaper where
  total a b := by
    rcases lt_trichotomy (priceRank a) (priceRank b) with h | h | h
    · exact .inl (.inl h)
    · rcases List.le_total a.providerId b.providerId with hid | hid
      · exact .inl (.inr ⟨h, hid⟩)
      · exact .inr (.inr ⟨h.symm, hid⟩)
    · exact .inr (.inl h)

instance : IsTrans CatalogueEntry cheaper where
  trans a b c hab hbc := by
    rcases hab with hab | ⟨hab, hid⟩
    · rcases hbc with hbc | ⟨hbc, -⟩
      · exact .inl (hab.trans hbc)
      · exact .inl (hbc ▸ hab)
    · rcases hbc with hbc | ⟨hbc, hid'⟩
      · exact .inl (hab ▸ hbc)
      · have hle := List.le_trans (List.not_lt.mp hid) (List.not_lt.mp hid')
        exact .inr ⟨hab.trans hbc, List.not_lt.mpr hle⟩

theorem aggregate_sorted : (aggregate providers).entries.Pairwise cheaper :=
  List.pairwise_insertionSort _ _

/-- The entries of a provider are those of its own catalogue. -/
theorem mem_aggregate_of (hids : (providers.map fun p => p.1.providerId).Nodup)
    (hmem : (record, .ok cat) ∈ providers) (hen : record.enabled) :
    (e ∈ (aggregate providers).entries ∧ e.providerId = record.providerId) ↔
      e ∈ entriesOf record cat := by
  rw [mem_aggregate]
  constructor
  · rintro ⟨⟨record', cat', hmem', hen', he⟩, hid⟩
    have hsame : (record', (.ok cat' : Except UpstreamError Catalogue)) = (record, .ok cat) := by
      refine List.inj_on_of_nodup_map hids hmem' hmem ?_
      obtain ⟨k, p, -, rfl⟩ := mem_entriesOf.mp he
      exact hid
    simp only [Prod.mk.injEq, Except.ok.injEq] at hsame
    obtain ⟨rfl, rfl⟩ := hsame
    exact he
  · intro he
    refine ⟨⟨record, cat, hmem, hen, he⟩, ?_⟩
    obtain ⟨k, p, -, rfl⟩ := mem_entriesOf.mp he
    rfl

end Listing

/-! ### Listed and bought -/

/-- What is listed for a provider can be bought from it at the price listed, which is one. -/
structure Honoured (providers : Answers) (record : ProviderRecord) (cat : Catalogue) : Prop where
  priced : ∀ e ∈ (aggregate providers).entries, e.providerId = record.providerId →
    ∀ u, parseU64 e.price = some u → priceOf cat e.resource = .ok u
  single : ∀ e ∈ (aggregate providers).entries, ∀ e' ∈ (aggregate providers).entries,
    e.providerId = record.providerId → e'.providerId = record.providerId →
      e.resource = e'.resource → e.price = e'.price

/-- The keys a provider publishes: what has a price is also spelled the normal way, and two
spellings of one path carry one price. -/
structure WellSpelled (cat : Catalogue) : Prop where
  normal : ∀ k p, (k, p) ∈ cat.resources → (parseU64 p.price).isSome →
    ∃ p', (normaliseResource k, p') ∈ cat.resources
  agree : ∀ k p k' p', (k, p) ∈ cat.resources → (k', p') ∈ cat.resources →
    normaliseResource k = normaliseResource k' → p.price = p'.price

/-- A listing is honoured exactly where the keys are spelled well. The listing and the purchase
read one catalogue here; how old a cached one may be is the subject of `CataloguePrices`. -/
theorem listing_honoured_iff {providers : Answers} {record : ProviderRecord} {cat : Catalogue}
    (hids : (providers.map fun p => p.1.providerId).Nodup)
    (hmem : (record, .ok cat) ∈ providers) (hen : record.enabled) :
    Honoured providers record cat ↔ WellSpelled cat := by
  have hof := @mem_aggregate_of providers record cat
  constructor
  · intro h
    refine ⟨fun k p hk hprice => ?_, fun k p k' p' hk hk' heq => ?_⟩
    · obtain ⟨u, hu⟩ := Option.isSome_iff_exists.mp hprice
      obtain ⟨he, hid⟩ := (hof hids hmem hen).mpr (mem_entriesOf.mpr ⟨k, p, hk, rfl⟩)
      obtain ⟨p', hp', -⟩ := priceOf_eq_ok.mp (h.priced _ he hid u hu)
      rw [normaliseResource_normaliseResource] at hp'
      exact ⟨p', hp'⟩
    · obtain ⟨he, hid⟩ := (hof hids hmem hen).mpr (mem_entriesOf.mpr ⟨k, p, hk, rfl⟩)
      obtain ⟨he', hid'⟩ := (hof hids hmem hen).mpr (mem_entriesOf.mpr ⟨k', p', hk', rfl⟩)
      exact h.single _ he _ he' hid hid' heq
  · intro h
    refine ⟨fun e he hid u hu => ?_, fun e he e' he' hid hid' heq => ?_⟩
    · obtain ⟨k, p, hk, rfl⟩ := mem_entriesOf.mp ((hof hids hmem hen).mp ⟨he, hid⟩)
      obtain ⟨p', hp'⟩ := h.normal k p hk (Option.isSome_iff_exists.mpr ⟨u, hu⟩)
      have hsame : p.price = p'.price :=
        h.agree _ _ _ _ hk hp' normaliseResource_normaliseResource.symm
      refine priceOf_eq_ok.mpr ⟨p', ?_, hsame ▸ hu⟩
      rw [normaliseResource_normaliseResource]
      exact hp'
    · obtain ⟨k, p, hk, rfl⟩ := mem_entriesOf.mp ((hof hids hmem hen).mp ⟨he, hid⟩)
      obtain ⟨k', p', hk', rfl⟩ := mem_entriesOf.mp ((hof hids hmem hen).mp ⟨he', hid'⟩)
      exact h.agree _ _ _ _ hk hk' heq

/-! ### A key without its slash -/

def seller : ProviderRecord := ⟨['p'], ['P'], "http://p".toList, none, true⟩

/-- One resource, at price one, published without the leading slash. -/
def slashless : Catalogue where
  provider := ['P']
  resources := [(['a'], ⟨['1'], []⟩)]
  distinct := by simp

/-- The same resource under both spellings, at two prices. -/
def doubled : Catalogue where
  provider := ['P']
  resources := [(['/', 'a'], ⟨['1'], []⟩), (['a'], ⟨['2'], []⟩)]
  distinct := by simp

theorem listing_honoured_iff_slashless :
    Honoured [(seller, .ok slashless)] seller slashless ↔ WellSpelled slashless :=
  listing_honoured_iff (by simp) (by simp) rfl

/-- The listing names a resource that no purchase finds, and two prices for one path. -/
theorem listed_not_sold :
    (aggregate [(seller, .ok slashless)]).entries = [⟨['p'], ['P'], ['/', 'a'], ['1'], []⟩] ∧
      parseU64 ['1'] = some 1 ∧ priceOf slashless ['/', 'a'] = .error .unknownResource ∧
      ¬Honoured [(seller, .ok slashless)] seller slashless ∧
      (aggregate [(seller, .ok doubled)]).entries.map (fun e => (e.resource, e.price)) =
        [(['/', 'a'], ['1']), (['/', 'a'], ['2'])] ∧
      ¬Honoured [(seller, .ok doubled)] seller doubled := by
  have hlisted : (aggregate [(seller, .ok slashless)]).entries =
      [⟨['p'], ['P'], ['/', 'a'], ['1'], []⟩] := rfl
  have hunsold : priceOf slashless ['/', 'a'] = .error .unknownResource := by decide
  have htwice : (aggregate [(seller, .ok doubled)]).entries =
      [⟨['p'], ['P'], ['/', 'a'], ['1'], []⟩, ⟨['p'], ['P'], ['/', 'a'], ['2'], []⟩] := by decide
  refine ⟨hlisted, by decide, hunsold, fun h => ?_, by rw [htwice]; rfl, fun h => ?_⟩
  · have hsold := h.priced _ (hlisted ▸ List.mem_singleton_self _) rfl 1 (by decide)
    rw [hunsold] at hsold
    cases hsold
  · have hone : (['1'] : Text) = ['2'] := h.single ⟨['p'], ['P'], ['/', 'a'], ['1'], []⟩
      (by simp [htwice]) ⟨['p'], ['P'], ['/', 'a'], ['2'], []⟩ (by simp [htwice]) rfl rfl rfl
    cases hone

end AgentPay.CatalogueListings
