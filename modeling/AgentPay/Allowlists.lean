import AgentPay.CatalogueListings

/-!
# What an allowlist permits

The allowlist is compared after `normalise_resource` of `policy.rs`, which cuts off outer
whitespace and the query; the buy path prices a resource after its own, which cuts off
slashes only. Two keys with prices of their own can therefore be one resource to the
policy: those that differ in the query, which is meant, or in trailing whitespace.

Slashes added to an entry of the list change nothing, except behind a path that ends in
whitespace, which they shield from the cut.
-/
namespace AgentPay.Allowlists
open PolicyRules
open CatalogueListings (Bare)
open Trimming

/-- The identity of a priced path under a policy: trailing whitespace, the query and
trailing slashes are cut off, in this order. -/
def identity (r : Text) : Text :=
  '/' :: trimEnd (· == '/') ((trimEnd isWhitespace r).tail.takeWhile (· != '?'))

/-- An entry of an allowlist with slashes around it. -/
def slashed (m n : ℕ) (r : Text) : Text := List.replicate m '/' ++ r ++ List.replicate n '/'

section Identities
variable {r t u : Text} {m n : ℕ}

theorem trimStart_slashes : trimStart (· == '/') (List.replicate m '/' ++ u) =
    trimStart (· == '/') u :=
  List.dropWhile_append_of_pos fun a ha => by simp [List.eq_of_mem_replicate ha]

/-- However many slashes lead, the policy reads what follows them. -/
theorem normaliseResource_slashes : normaliseResource (List.replicate m '/' ++ '/' :: u) =
    '/' :: trimEnd (· == '/')
      ((trimStart (· == '/') (trimEnd isWhitespace u)).takeWhile (· != '?')) := by
  have hstart : trimStart isWhitespace (List.replicate m '/' ++ '/' :: u) =
      List.replicate m '/' ++ '/' :: u := by
    rcases m with _ | m
    · rfl
    · rfl
  have hend : trimEnd isWhitespace (List.replicate m '/' ++ '/' :: u) =
      List.replicate m '/' ++ '/' :: trimEnd isWhitespace u := rdropWhile_append_stop rfl
  have hcut : trimStart (· == '/') ('/' :: trimEnd isWhitespace u) =
      trimStart (· == '/') (trimEnd isWhitespace u) := rfl
  rw [normaliseResource, hstart, hend, trimStart_slashes, hcut]

theorem identity_cons : identity ('/' :: t) =
    '/' :: trimEnd (· == '/') ((trimEnd isWhitespace t).takeWhile (· != '?')) := by
  have hend : trimEnd isWhitespace ('/' :: t) = '/' :: trimEnd isWhitespace t :=
    rdropWhile_cons_stop rfl
  rw [identity, hend, List.tail_cons]

theorem normaliseResource_leading (ht : Bare t) :
    normaliseResource (List.replicate m '/' ++ '/' :: t) = identity ('/' :: t) := by
  have hbare : trimStart (· == '/') (trimEnd isWhitespace t) = trimEnd isWhitespace t :=
    dropWhile_prefix ht.1 (List.rdropWhile_prefix _ t)
  rw [normaliseResource_slashes, identity_cons, hbare]

theorem trimStart_trailing (ht : Bare t) :
    trimEnd (· == '/') ((trimStart (· == '/') (t ++ List.replicate n '/')).takeWhile (· != '?')) =
      trimEnd (· == '/') (t.takeWhile (· != '?')) := by
  rcases t with _ | ⟨c, t⟩
  · have hnil : trimStart (· == '/') (List.replicate n '/' ++ []) = [] := trimStart_slashes
    rw [List.nil_append, ← List.append_nil (List.replicate n '/'), hnil]
  · have hhead := List.dropWhile_eq_self_iff.mp ht.1 (by simp)
    have hstart : trimStart (· == '/') (c :: t ++ List.replicate n '/') =
        c :: t ++ List.replicate n '/' := List.dropWhile_eq_self_iff.mpr fun _ => hhead
    rw [hstart]
    exact rdropWhile_takeWhile_append fun a ha => by simp [List.eq_of_mem_replicate ha]

/-- So do trailing ones, unless they hide whitespace. -/
theorem normaliseResource_slashed (ht : Bare t)
    (h : n = 0 ∨ '?' ∈ t ∨ trimEnd isWhitespace t = t) :
    normaliseResource (slashed m n ('/' :: t)) = identity ('/' :: t) := by
  rcases n with _ | n
  · rw [slashed, List.replicate_zero, List.append_nil, normaliseResource_leading ht]
  · have hlast : trimEnd isWhitespace (t ++ List.replicate (n + 1) '/') =
        t ++ List.replicate (n + 1) '/' := by
      rw [List.replicate_succ', ← List.append_assoc]
      exact List.rdropWhile_concat_neg _ _ _ (by decide)
    have hread : (trimEnd isWhitespace t).takeWhile (· != '?') = t.takeWhile (· != '?') := by
      rcases h with h | h | h
      · cases h
      · exact takeWhile_rdropWhile h rfl rfl
      · rw [h]
    rw [slashed, List.append_assoc, List.cons_append, normaliseResource_slashes, hlast,
      trimStart_trailing ht, identity_cons, hread]

theorem normaliseResource_bare (ht : Bare t) :
    normaliseResource ('/' :: t) = identity ('/' :: t) := by
  simpa using @normaliseResource_leading t 0 ht

/-- A path without query and trailing whitespace is its own identity. -/
theorem identity_plain (ht : Bare t) (hq : '?' ∉ t) (hw : trimEnd isWhitespace t = t) :
    identity ('/' :: t) = '/' :: t := by
  have hall : t.takeWhile (· != '?') = t :=
    List.takeWhile_eq_self_iff.mpr fun c hc => bne_iff_ne.mpr fun h => hq (h ▸ hc)
  rw [identity_cons, hw, hall, ht.2]

end Identities

/-! ### What is refused -/

/-- The list holds the one resource and no other. -/
def Only (policy : AgentPolicy) (r : Text) : Prop :=
  ∃ allowed, policy.allowedResources = some allowed ∧ allowed ≠ [] ∧ ∀ a ∈ allowed, a = r

/-- Without query and trailing whitespace. -/
def Plain (r : Text) : Prop := '?' ∉ r ∧ trimEnd isWhitespace r = r

section Refusals
variable {policy : AgentPolicy} {r r₁ r₂ : Text} {status : AgentStatus} {mode : AgentMode}
variable {price : UInt64} {spend : Spend} {allowed : List Text}

theorem evaluate_resourceNotAllowed_iff :
    evaluate status mode policy r price spend = .refuse .resourceNotAllowed ↔
      status = .active ∧ resourcePermitted policy r = false := by
  unfold evaluate
  split_ifs with h₁ h₂ h₃ h₄ h₅ h₆
  · simp [h₁]
  · rw [not_not] at h₁
    simp [h₁, h₂]
  all_goals simp [h₂]

theorem resourcePermitted_iff (h : policy.allowedResources = some allowed) (hne : allowed ≠ []) :
    resourcePermitted policy r = true ↔
      ∃ a ∈ allowed, normaliseResource a = normaliseResource r := by
  simp [resourcePermitted, h, hne]

theorem resourcePermitted_only (h : Only policy r₁) :
    resourcePermitted policy r₂ = true ↔ normaliseResource r₁ = normaliseResource r₂ := by
  obtain ⟨allowed, hallowed, hne, hall⟩ := h
  rw [resourcePermitted_iff hallowed hne]
  constructor
  · rintro ⟨a, ha, heq⟩
    rwa [hall a ha] at heq
  · intro heq
    obtain ⟨a, ha⟩ := List.exists_mem_of_ne_nil _ hne
    exact ⟨a, ha, by rwa [hall a ha]⟩

/-- The policy's reading of a path that can be priced. -/
theorem normaliseResource_priced (h : AffordablePurchases.normaliseResource r = r) :
    normaliseResource r = identity r := by
  obtain ⟨t, ht, rfl⟩ := CatalogueListings.normaliseResource_eq_self_iff.mp h
  exact normaliseResource_bare ht

theorem identity_of_plain (h : AffordablePurchases.normaliseResource r = r) (hr : Plain r) :
    identity r = r := by
  obtain ⟨t, ht, rfl⟩ := CatalogueListings.normaliseResource_eq_self_iff.mp h
  have hw : '/' :: trimEnd isWhitespace t = '/' :: t :=
    (rdropWhile_cons_stop rfl).symm.trans hr.2
  exact identity_plain ht (fun hq => hr.1 (List.mem_cons_of_mem _ hq)) (List.cons.inj hw).2

theorem slashed_permitted (h : AffordablePurchases.normaliseResource r = r) {m n : ℕ}
    (hn : n = 0 ∨ '?' ∈ r ∨ trimEnd isWhitespace r = r)
    (hallowed : policy.allowedResources = some allowed) (hmem : slashed m n r ∈ allowed) :
    resourcePermitted policy r = true := by
  refine (resourcePermitted_iff hallowed (List.ne_nil_of_mem hmem)).mpr ⟨_, hmem, ?_⟩
  rw [normaliseResource_priced h]
  obtain ⟨t, ht, rfl⟩ := CatalogueListings.normaliseResource_eq_self_iff.mp h
  refine normaliseResource_slashed ht ?_
  rcases hn with hn | hn | hn
  · exact .inl hn
  · exact .inr (.inl ((List.mem_cons.mp hn).resolve_left (by decide)))
  · exact .inr (.inr (List.cons.inj ((rdropWhile_cons_stop rfl).symm.trans hn)).2)

end Refusals

/-- An allowlist permits what has the identity it names: a path without its query, its trailing
slashes and trailing whitespace. Different plain paths differ in it, and an entry may have
slashes around it that the path has not. -/
theorem allowlist_names {r₁ r₂ : Text} (h₁ : AffordablePurchases.normaliseResource r₁ = r₁)
    (h₂ : AffordablePurchases.normaliseResource r₂ = r₂) :
    (∀ policy, Only policy r₁ → ∀ status mode price spend,
      evaluate status mode policy r₂ price spend = .refuse .resourceNotAllowed ↔
        status = .active ∧ identity r₁ ≠ identity r₂) ∧
    (Plain r₁ → Plain r₂ → r₁ ≠ r₂ → identity r₁ ≠ identity r₂) ∧
    ∀ m n, n = 0 ∨ '?' ∈ r₁ ∨ trimEnd isWhitespace r₁ = r₁ →
      ∀ policy allowed, policy.allowedResources = some allowed → slashed m n r₁ ∈ allowed →
        ∀ status mode price spend,
          evaluate status mode policy r₁ price spend ≠ .refuse .resourceNotAllowed := by
  refine ⟨fun policy hpolicy status mode price spend => ?_, fun hp₁ hp₂ hne => ?_,
    fun m n hn policy allowed hallowed hmem status mode price spend => ?_⟩
  · rw [evaluate_resourceNotAllowed_iff, ← Bool.not_eq_true, resourcePermitted_only hpolicy,
      normaliseResource_priced h₁, normaliseResource_priced h₂]
  · rwa [identity_of_plain h₁ hp₁, identity_of_plain h₂ hp₂]
  · rw [ne_eq, evaluate_resourceNotAllowed_iff, slashed_permitted h₁ hn hallowed hmem]
    simp

theorem allowlist_names_weather :
    (∀ policy, Only policy "/weather".toList → ∀ status mode price spend,
      evaluate status mode policy "/quote".toList price spend = .refuse .resourceNotAllowed ↔
        status = .active ∧ identity "/weather".toList ≠ identity "/quote".toList) ∧
    (Plain "/weather".toList → Plain "/quote".toList → "/weather".toList ≠ "/quote".toList →
      identity "/weather".toList ≠ identity "/quote".toList) ∧
    ∀ m n, n = 0 ∨ '?' ∈ "/weather".toList ∨
        trimEnd isWhitespace "/weather".toList = "/weather".toList →
      ∀ policy allowed, policy.allowedResources = some allowed →
        slashed m n "/weather".toList ∈ allowed → ∀ status mode price spend,
          evaluate status mode policy "/weather".toList price spend ≠
            .refuse .resourceNotAllowed :=
  allowlist_names (by decide) (by decide)

def weatherOnly : AgentPolicy := ⟨100, 100, none, some ["/weather".toList], none⟩

/-- Two keys with prices of their own, and the list of one permits the other. -/
theorem query_permitted :
    AffordablePurchases.normaliseResource "/weather".toList = "/weather".toList ∧
      AffordablePurchases.normaliseResource "/weather?city=lahore".toList =
        "/weather?city=lahore".toList ∧
      "/weather".toList ≠ "/weather?city=lahore".toList ∧ Only weatherOnly "/weather".toList ∧
      evaluate .active .autonomous weatherOnly "/weather?city=lahore".toList 1 ⟨0, 0⟩ = .allow := by
  refine ⟨by decide, by decide, by decide, ⟨_, rfl, by simp, by simp⟩, by decide⟩

end AgentPay.Allowlists
