import Mathlib.Data.List.Induction
import Mathlib.Data.Nat.Digits.Lemmas

/-!
# Digit strings, most significant digit first

A digit string in one base is rewritten in another with its leading zeros kept one for
one. Two rewritings that go opposite ways undo each other, whatever the string.
-/
namespace AgentPay.PositionalDigits

def value (b : ℕ) (ds : List ℕ) : ℕ := ds.foldl (fun n d => n * b + d) 0

/-- The digits of a number, without leading zeros and so none for zero. -/
def digits (b n : ℕ) : List ℕ := (Nat.digits b n).reverse

def leadingZeros (ds : List ℕ) : ℕ := (ds.takeWhile (· = 0)).length

/-- The digits in another base, with as many leading zeros as before. -/
def recode (b c : ℕ) (ds : List ℕ) : List ℕ :=
  List.replicate (leadingZeros ds) 0 ++ digits c (value b ds)

section Values
variable {b : ℕ} {ds : List ℕ}

theorem value_append_singleton (d : ℕ) : value b (ds ++ [d]) = value b ds * b + d := by
  simp [value]

theorem value_eq_ofDigits (b : ℕ) (ds : List ℕ) : value b ds = Nat.ofDigits b ds.reverse := by
  induction ds using List.reverseRecOn with
  | nil => rfl
  | append_singleton ds d ih =>
    rw [value_append_singleton, ih, List.reverse_append, List.reverse_singleton,
      List.singleton_append, Nat.ofDigits_cons]
    ring

theorem value_digits (b n : ℕ) : value b (digits b n) = n := by
  rw [value_eq_ofDigits, digits, List.reverse_reverse, Nat.ofDigits_digits]

theorem value_replicate_append (n : ℕ) : value b (List.replicate n 0 ++ ds) = value b ds := by
  rw [value_eq_ofDigits, value_eq_ofDigits, List.reverse_append, List.reverse_replicate,
    Nat.ofDigits_append_replicate_zero]

theorem digits_lt {n d : ℕ} (hb : 1 < b) (hd : d ∈ digits b n) : d < b :=
  Nat.digits_lt_base hb (List.mem_reverse.mp hd)

theorem digits_of_pos {n : ℕ} (hb : 1 < b) (hn : n ≠ 0) :
    digits b n = digits b (n / b) ++ [n % b] := by
  rw [digits, Nat.digits_eq_cons_digits_div hb hn, List.reverse_cons]
  rfl

theorem digits_zero (b : ℕ) : digits b 0 = [] := by simp [digits]

theorem leadingZeros_digits (b n : ℕ) : leadingZeros (digits b n) = 0 := by
  rcases hd : digits b n with _ | ⟨d, ds⟩
  · rfl
  · have hne : Nat.digits b n ≠ [] := by
      intro h
      rw [digits, h] at hd
      cases hd
    have hn : n ≠ 0 := Nat.digits_ne_nil_iff_ne_zero.mp hne
    have hlast := Nat.getLast_digit_ne_zero b hn
    have hhead : (Nat.digits b n).getLast hne = d := by
      rw [← List.head_reverse (by simpa using hne)]
      simp only [digits] at hd
      simp [hd]
    rw [hhead] at hlast
    simp [leadingZeros, hlast]

/-- A string is its leading zeros and the digits of its number. -/
theorem replicate_digits_value (hb : 1 < b) (hds : ∀ d ∈ ds, d < b) :
    List.replicate (leadingZeros ds) 0 ++ digits b (value b ds) = ds := by
  induction ds with
  | nil => simp [leadingZeros, value, digits_zero]
  | cons d ds ih =>
    by_cases hd : d = 0
    · have htail := ih fun x hx => hds x (List.mem_cons_of_mem _ hx)
      have hzeros : leadingZeros (d :: ds) = leadingZeros ds + 1 := by simp [leadingZeros, hd]
      have hvalue : value b (d :: ds) = value b ds := by simp [value, hd]
      rw [hzeros, hvalue, List.replicate_succ, List.cons_append, htail, hd]
    · have hzeros : leadingZeros (d :: ds) = 0 := by simp [leadingZeros, hd]
      rw [hzeros, List.replicate_zero, List.nil_append, digits, value_eq_ofDigits,
        Nat.digits_ofDigits b hb, List.reverse_reverse]
      · intro x hx
        exact hds x (List.mem_reverse.mp hx)
      · intro hne
        simpa using hd

theorem leadingZeros_replicate_append (n : ℕ) :
    leadingZeros (List.replicate n 0 ++ ds) = n + leadingZeros ds := by
  induction n with
  | zero => simp
  | succ n ih =>
    rw [List.replicate_succ, List.cons_append]
    have hstep (l : List ℕ) : leadingZeros (0 :: l) = leadingZeros l + 1 := by simp [leadingZeros]
    rw [hstep, ih]
    omega

end Values

section Recoding
variable {b c : ℕ} {ds : List ℕ}

theorem recode_lt (hc : 1 < c) : ∀ d ∈ recode b c ds, d < c := by
  intro d hd
  rcases List.mem_append.mp hd with hd | hd
  · rw [(List.mem_replicate.mp hd).2]
    omega
  · exact digits_lt hc hd

theorem recode_recode (hb : 1 < b) (hds : ∀ d ∈ ds, d < b) :
    recode c b (recode b c ds) = ds := by
  have hzeros : leadingZeros (recode b c ds) = leadingZeros ds := by
    rw [recode, leadingZeros_replicate_append, leadingZeros_digits, Nat.add_zero]
  have hvalue : value c (recode b c ds) = value b ds := by
    rw [recode, value_replicate_append, value_digits]
  rw [recode, hzeros, hvalue, replicate_digits_value hb hds]

theorem recode_ne_nil (hb : 1 < b) (hds : ∀ d ∈ ds, d < b) (hne : ds ≠ []) :
    recode b c ds ≠ [] := by
  intro h
  have hback := @recode_recode b c ds hb hds
  rw [h] at hback
  exact hne (by simpa [recode, leadingZeros, value, digits] using hback.symm)

end Recoding

end AgentPay.PositionalDigits
