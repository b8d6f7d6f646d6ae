import Mathlib.Data.List.Sort

/-!
# Places in a sorted list

Where an element stands after a stable sort: behind those the order puts strictly
before it, and behind the elements of its own rank that came before it already.
So whether it is among the first `n` is a matter of counting.
-/
namespace AgentPay.StableSort

universe u
variable {α : Type u} {r : α → α → Prop} {l : List α} {x e : α}

/-- `x` goes before `e`: by the order, or by its place where the order does not
decide. -/
def Precedes (r : α → α → Prop) (l : List α) (x e : α) : Prop := r x e ∧ (r e x → [x, e].Sublist l)

instance [DecidableEq α] [DecidableRel r] : Decidable (Precedes r l x e) :=
  inferInstanceAs (Decidable (_ ∧ _))

section Pairs

theorem pair_sublist_of_mem {a b : List α} (hx : x ∈ a) : [x, e].Sublist (a ++ e :: b) := by
  have h : ([x] ++ [e]).Sublist (a ++ e :: b) :=
    (List.singleton_sublist.mpr hx).append (List.singleton_sublist.mpr List.mem_cons_self)
  exact h

theorem sublist_pair_of_mem {a b : List α} (hx : x ∈ b) : [e, x].Sublist (a ++ e :: b) := by
  have h : [e, x].Sublist (e :: b) := (List.singleton_sublist.mpr hx).cons_cons e
  exact h.trans (List.sublist_append_right _ _)

theorem not_pair_sublist (hl : l.Nodup) (h : [x, e].Sublist l) : ¬[e, x].Sublist l := by
  induction l with
  | nil => cases h
  | cons y l ih =>
    rw [List.nodup_cons] at hl
    intro h'
    cases h with
    | cons _ h =>
      cases h' with
      | cons _ h' => exact ih hl.2 h h'
      | cons_cons _ h' => exact hl.1 (h.subset (by simp))
    | cons_cons _ h =>
      cases h' with
      | cons _ h' => exact hl.1 (h'.subset (by simp))
      | cons_cons _ h' => exact hl.1 (h.subset (by simp))

theorem pair_sublist_or (hx : x ∈ l) (he : e ∈ l) (hne : x ≠ e) :
    [x, e].Sublist l ∨ [e, x].Sublist l := by
  rcases List.append_of_mem he with ⟨a, b, rfl⟩
  rw [List.mem_append, List.mem_cons] at hx
  rcases hx with hx | rfl | hx
  · exact .inl (pair_sublist_of_mem hx)
  · exact absurd rfl hne
  · exact .inr (sublist_pair_of_mem hx)

end Pairs

section Places
variable [DecidableRel r] [Std.Total r] [IsTrans α r]

/-- The elements sorted before `e` are those that precede it. -/
theorem pair_sublist_insertionSort_iff (hl : l.Nodup) (hx : x ∈ l) (he : e ∈ l) (hne : x ≠ e) :
    [x, e].Sublist (l.insertionSort r) ↔ Precedes r l x e := by
  have hsorted := List.pairwise_insertionSort r l
  have hnodup : (l.insertionSort r).Nodup := (List.perm_insertionSort r l).nodup_iff.mpr hl
  constructor
  · intro h
    have hr : r x e := List.pairwise_pair.mp (hsorted.sublist h)
    refine ⟨hr, fun hback => ?_⟩
    rcases pair_sublist_or hx he hne with hxe | hex
    · exact hxe
    · exact absurd (List.pair_sublist_insertionSort hback hex) (not_pair_sublist hnodup h)
  · rintro ⟨hr, hplace⟩
    by_cases hback : r e x
    · exact List.pair_sublist_insertionSort hr (hplace hback)
    · rcases pair_sublist_or ((List.mem_insertionSort r).mpr hx) ((List.mem_insertionSort r).mpr he)
        hne with h | h
      · exact h
      · exact absurd (List.pairwise_pair.mp (hsorted.sublist h)) hback

/-- An element is among the first `n` of a sorted list if fewer than `n` precede it. -/
theorem mem_take_insertionSort_iff [DecidableEq α] (hl : l.Nodup) (he : e ∈ l) (n : ℕ) :
    e ∈ (l.insertionSort r).take n ↔ l.countP (fun x => Precedes r l x e) < n := by
  have hperm := List.perm_insertionSort r l
  have hnodup := hperm.nodup_iff.mpr hl
  have hmem := (List.mem_insertionSort r).mpr he
  have hiff : ∀ x ∈ l, x ≠ e → ([x, e].Sublist (l.insertionSort r) ↔ Precedes r l x e) :=
    fun x hx hne => pair_sublist_insertionSort_iff hl hx he hne
  have hself : ¬Precedes r l e e := fun h =>
    not_pair_sublist hl (h.2 h.1) (h.2 h.1)
  rw [← hperm.countP_eq]
  rcases List.append_of_mem hmem with ⟨a, b, hsplit⟩
  have hback : ∀ x ∈ l.insertionSort r, x ∈ l := fun x hx => (List.mem_insertionSort r).mp hx
  rw [hsplit] at hnodup hback hiff ⊢
  have hparts := List.nodup_append.mp hnodup
  have hea : e ∉ a := fun h => hparts.2.2 e h e List.mem_cons_self rfl
  have heb : e ∉ b := (List.nodup_cons.mp hparts.2.1).1
  have ha : a.countP (fun x => Precedes r l x e) = a.length := by
    rw [List.countP_eq_length]
    intro x hx
    have hxl := hback x (List.mem_append_left _ hx)
    exact decide_eq_true ((hiff x hxl fun h => hea (h ▸ hx)).mp (pair_sublist_of_mem hx))
  have hb : (e :: b).countP (fun x => Precedes r l x e) = 0 := by
    rw [List.countP_eq_zero]
    intro x hx
    rw [decide_eq_true_eq]
    rcases List.mem_cons.mp hx with rfl | hx
    · exact hself
    · intro h
      have hxl := hback x (List.mem_append_right _ (List.mem_cons_of_mem _ hx))
      have hpair := (hiff x hxl fun he => heb (he ▸ hx)).mpr h
      exact not_pair_sublist hnodup hpair (sublist_pair_of_mem hx)
  rw [List.countP_append, ha, hb, Nat.add_zero]
  constructor
  · intro h
    by_contra hn
    rw [List.take_append_of_le_length (Nat.le_of_not_lt hn)] at h
    exact hea (List.mem_of_mem_take h)
  · intro h
    rw [List.take_append, List.mem_append]
    right
    rw [List.take_cons (by omega)]
    exact List.mem_cons_self

end Places

end AgentPay.StableSort
