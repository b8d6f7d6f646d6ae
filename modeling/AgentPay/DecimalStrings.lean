import AgentPay.PolicyRules
import AgentPay.PositionalDigits
import Mathlib.Tactic.Linarith

/-!
# Whole numbers as decimal strings

`toString` of a JavaScript `bigint` and `BigInt` of a string, and `str::parse` of Rust for
an integer type, given by its bounds. The Rust parser takes a sign, a minus only where the
type has negative values, and then multiplies and adds digit by digit; it gives up where
the type overflows. A value of the type comes back as it was printed, the most negative
one included.
-/
namespace AgentPay.DecimalStrings
open PolicyRules PositionalDigits

def decimals : Text := ['0', '1', '2', '3', '4', '5', '6', '7', '8', '9']

def decimal (d : ℕ) : Char := decimals.getD d '0'

def natToString (n : ℕ) : Text := if n = 0 then ['0'] else (digits 10 n).map decimal

/-- `bigint.toString()`. -/
def bigintToString (x : ℤ) : Text :=
  if x < 0 then '-' :: natToString x.natAbs else natToString x.natAbs

/-! ### `str::parse` -/

section Parsing
variable (lo hi : ℤ)

def checked (x : ℤ) : Option ℤ := if lo ≤ x ∧ x ≤ hi then some x else none

def parseDigits (positive : Bool) (result : ℤ) : Text → Option ℤ
  | [] => some result
  | c::src => do
    let mul ← checked lo hi (result * 10)
    let x ← decimals.idxOf? c
    let result ← checked lo hi (if positive then mul + x else mul - x)
    parseDigits positive result src

/-- `from_str_radix(src, 10)`. -/
def parseInt (src : Text) : Option ℤ :=
  match src with
  | [] => none
  | c::digits =>
    if digits = [] ∧ (c = '+' ∨ c = '-') then none
    else if c = '+' then parseDigits lo hi true 0 digits
    else if c = '-' ∧ lo < 0 then parseDigits lo hi false 0 digits
    else parseDigits lo hi true 0 (c :: digits)

end Parsing

def parseU64 (src : Text) : Option UInt64 :=
  (parseInt 0 (2 ^ 64 - 1) src).map fun x => UInt64.ofNat x.toNat

def parseI64 (src : Text) : Option Int64 :=
  (parseInt (-2 ^ 63) (2 ^ 63 - 1) src).map Int64.ofInt

/-! ### `BigInt` of a string -/

def isStrWhiteSpace (c : Char) : Bool := (isWhitespace c && c.toNat != 0x85) || c.toNat == 0xfeff

def numerals : Text := decimals ++ ['a', 'b', 'c', 'd', 'e', 'f']

def literal (b : ℕ) (src : Text) : Option ℕ :=
  if src = [] then none else
    src.foldlM (fun n c => do
      let d ← numerals.idxOf? c.toLower
      if d < b then some (n * b + d) else none) 0

/-- The base a prefix announces. -/
def radix : Text → ℕ × Text
  | c::d::digits =>
    if c = '0' ∧ d.toLower = 'x' then (16, digits)
    else if c = '0' ∧ d.toLower = 'o' then (8, digits)
    else if c = '0' ∧ d.toLower = 'b' then (2, digits)
    else (10, c :: d :: digits)
  | src => (10, src)

/-- Blank strings are zero, and a sign goes with decimal digits only. -/
def stringToBigInt (src : Text) : Option ℤ :=
  match trimEnd isStrWhiteSpace (trimStart isStrWhiteSpace src) with
  | [] => some 0
  | c::digits =>
    if c = '+' then (literal 10 digits).map Int.ofNat
    else if c = '-' then (literal 10 digits).map fun n => -Int.ofNat n
    else (literal (radix (c :: digits)).1 (radix (c :: digits)).2).map Int.ofNat

/-! ### Reading back -/

section Letters
variable {d : ℕ}

theorem idxOf?_numeral (hd : d < 10) : numerals.idxOf? (decimal d).toLower = some d := by
  have hall : ∀ d : Fin 10, numerals.idxOf? (decimal d).toLower = some d.val := by decide
  exact hall ⟨d, hd⟩

theorem decimal_plain (hd : d < 10) : isStrWhiteSpace (decimal d) = false ∧
    (decimal d).toLower ≠ 'x' ∧ (decimal d).toLower ≠ 'o' ∧ (decimal d).toLower ≠ 'b' := by
  have hall : ∀ d : Fin 10, isStrWhiteSpace (decimal d) = false ∧
      (decimal d).toLower ≠ 'x' ∧ (decimal d).toLower ≠ 'o' ∧ (decimal d).toLower ≠ 'b' := by
    decide
  exact hall ⟨d, hd⟩

theorem idxOf?_decimal (hd : d < 10) : decimals.idxOf? (decimal d) = some d := by
  have hall : ∀ d : Fin 10, decimals.idxOf? (decimal d) = some d.val := by decide
  exact hall ⟨d, hd⟩

theorem decimal_ne_sign (hd : d < 10) : decimal d ≠ '+' ∧ decimal d ≠ '-' := by
  have hall : ∀ d : Fin 10, decimal d ≠ '+' ∧ decimal d ≠ '-' := by decide
  exact hall ⟨d, hd⟩

/-- A printed number is the string of its digits, and zero has one. -/
theorem natToString_eq (n : ℕ) : ∃ ds : List ℕ, ds ≠ [] ∧ (∀ d ∈ ds, d < 10) ∧
    value 10 ds = n ∧ natToString n = ds.map decimal := by
  unfold natToString
  split_ifs with hn
  · exact ⟨[0], List.cons_ne_nil _ _, by simp, by simp [value, hn], rfl⟩
  · refine ⟨digits 10 n, ?_, fun d hd => digits_lt (by decide) hd, value_digits 10 n, rfl⟩
    rw [@digits_of_pos 10 n (by decide) hn]
    exact List.append_ne_nil_of_right_ne_nil _ (List.cons_ne_nil _ _)

end Letters

section Accumulating
variable {lo hi : ℤ}

/-- The value `m` with the sign the parser works with. -/
def withSign (positive : Bool) (m : ℕ) : ℤ := if positive then m else -m

theorem le_foldl (ds : List ℕ) (m : ℕ) : m ≤ ds.foldl (fun n d => n * 10 + d) m := by
  induction ds generalizing m with
  | nil => exact le_rfl
  | cons d ds ih =>
    have htail := ih (m * 10 + d)
    rw [List.foldl_cons]
    omega

/-- Nothing overflows on the way to a value the type holds. -/
theorem parseDigits_decimals {positive : Bool} {ds : List ℕ} (hds : ∀ d ∈ ds, d < 10) {m : ℕ}
    (hfit : ∀ k ≤ ds.foldl (fun n d => n * 10 + d) m,
      lo ≤ withSign positive k ∧ withSign positive k ≤ hi) :
    parseDigits lo hi positive (withSign positive m) (ds.map decimal) =
      some (withSign positive (ds.foldl (fun n d => n * 10 + d) m)) := by
  induction ds generalizing m with
  | nil => rfl
  | cons d ds ih =>
    have hle := le_foldl ds (m * 10 + d)
    rw [List.foldl_cons] at hfit ⊢
    have hmul : withSign positive m * 10 = withSign positive (m * 10) := by
      cases positive <;> simp [withSign]
    have hadd : (if positive then withSign positive (m * 10) + d
        else withSign positive (m * 10) - d) = withSign positive (m * 10 + d) := by
      cases positive <;> simp [withSign]
      ring
    rw [List.map_cons, parseDigits, hmul, checked, if_pos (hfit _ (by omega)),
      idxOf?_decimal (hds d List.mem_cons_self)]
    simp only [Option.bind_eq_bind, Option.bind_some, hadd]
    rw [checked, if_pos (hfit _ hle), Option.bind_some]
    exact ih (fun x hx => hds x (List.mem_cons_of_mem _ hx)) hfit

theorem parseInt_natToString {n : ℕ} (hlo : lo ≤ 0) (hhi : n ≤ hi) :
    parseInt lo hi (natToString n) = some (n : ℤ) := by
  obtain ⟨ds, hne, hds, hvalue, hs⟩ := natToString_eq n
  rw [hs]
  rcases ds with _ | ⟨d, ds⟩
  · exact absurd rfl hne
  · have hsign := decimal_ne_sign (hds d List.mem_cons_self)
    have hparse := @parseDigits_decimals lo hi true (d :: ds) hds 0
    rw [← value, hvalue] at hparse
    rw [List.map_cons] at hparse ⊢
    rw [parseInt, if_neg (by simp [hsign]), if_neg hsign.1, if_neg (by simp [hsign])]
    refine hparse fun k hk => ?_
    simp only [withSign, if_true]
    omega

theorem parseInt_negative {n : ℕ} (hlo : lo ≤ -n) (hhi : 0 ≤ hi) (hn : 0 < n) :
    parseInt lo hi ('-' :: natToString n) = some (-n : ℤ) := by
  obtain ⟨ds, hne, hds, hvalue, hs⟩ := natToString_eq n
  have hparse := @parseDigits_decimals lo hi false ds hds 0
  rw [← value, hvalue] at hparse
  rw [hs, parseInt, if_neg (by simp [hne]), if_neg (by decide), if_pos ⟨rfl, by omega⟩]
  refine hparse fun k hk => ?_
  simp only [withSign, Bool.false_eq_true, if_false]
  omega

theorem parseInt_bigintToString {x : ℤ} (h₀ : lo ≤ 0) (h₁ : 0 ≤ hi) (hlo : lo ≤ x) (hhi : x ≤ hi) :
    parseInt lo hi (bigintToString x) = some x := by
  unfold bigintToString
  split_ifs with hx
  · rw [parseInt_negative (by omega) h₁ (by omega)]
    congr 1
    omega
  · rw [parseInt_natToString h₀ (by omega)]
    congr 1
    omega

theorem parseU64_bigintToString (x : UInt64) : parseU64 (bigintToString x.toNat) = some x := by
  have hx := x.toNat_lt
  rw [parseU64, parseInt_bigintToString le_rfl (by decide) (by omega) (by omega)]
  simp

theorem parseU64_natToString (x : UInt64) : parseU64 (natToString x.toNat) = some x := by
  have hback := parseU64_bigintToString x
  rwa [bigintToString, if_neg (by omega), Int.natAbs_natCast] at hback

theorem parseI64_bigintToString (x : Int64) : parseI64 (bigintToString x.toInt) = some x := by
  have hl := x.le_toInt
  have hu := x.toInt_lt
  rw [parseI64, parseInt_bigintToString (by decide) (by decide) hl (by omega)]
  simp

end Accumulating

section BigInts

theorem trim_decimals {ds : List ℕ} (hds : ∀ d ∈ ds, d < 10) :
    trimEnd isStrWhiteSpace (trimStart isStrWhiteSpace (ds.map decimal)) = ds.map decimal := by
  have hclean : ∀ l : List ℕ, (∀ d ∈ l, d < 10) →
      (l.map decimal).dropWhile isStrWhiteSpace = l.map decimal := by
    intro l hl
    rcases l with _ | ⟨d, l⟩
    · rfl
    · rw [List.map_cons, List.dropWhile_cons_of_neg]
      simp [(decimal_plain (hl d List.mem_cons_self)).1]
  unfold trimEnd trimStart
  rw [hclean ds hds, ← List.map_reverse,
    hclean ds.reverse fun d hd => hds d (List.mem_reverse.mp hd),
    ← List.map_reverse, List.reverse_reverse]

theorem literal_decimals {ds : List ℕ} (hds : ∀ d ∈ ds, d < 10) (hne : ds ≠ []) :
    literal 10 (ds.map decimal) = some (value 10 ds) := by
  have hfold : ∀ (l : List ℕ) (n : ℕ), (∀ d ∈ l, d < 10) →
      (l.map decimal).foldlM (fun n c => do
        let d ← numerals.idxOf? c.toLower
        if d < 10 then some (n * 10 + d) else none) n =
          some (l.foldl (fun n d => n * 10 + d) n) := by
    intro l
    induction l with
    | nil => exact fun _ _ => rfl
    | cons d l ih =>
      intro n hl
      have hd := hl d List.mem_cons_self
      rw [List.map_cons, List.foldlM_cons, idxOf?_numeral hd]
      simp only [Option.bind_eq_bind, Option.bind_some, if_pos hd, List.foldl_cons]
      exact ih _ fun x hx => hl x (List.mem_cons_of_mem _ hx)
  rw [literal, if_neg (by simpa using hne), hfold ds 0 hds]
  rfl

theorem radix_decimals {ds : List ℕ} (hds : ∀ d ∈ ds, d < 10) :
    radix (ds.map decimal) = (10, ds.map decimal) := by
  rcases ds with _ | ⟨c, _ | ⟨d, ds⟩⟩
  · rfl
  · rfl
  · have hd := decimal_plain (hds d (List.mem_cons_of_mem _ List.mem_cons_self))
    simp only [List.map_cons, radix, hd.2.1, hd.2.2.1, hd.2.2.2, and_false, if_false]

theorem stringToBigInt_natToString (n : ℕ) : stringToBigInt (natToString n) = some (n : ℤ) := by
  obtain ⟨ds, hne, hds, hvalue, hs⟩ := natToString_eq n
  rw [hs, stringToBigInt, trim_decimals hds]
  rcases ds with _ | ⟨d, ds⟩
  · exact absurd rfl hne
  · have hsign := decimal_ne_sign (hds d List.mem_cons_self)
    have hlit := literal_decimals hds hne
    have hradix := radix_decimals hds
    rw [List.map_cons] at hlit hradix ⊢
    simp only [if_neg hsign.1, if_neg hsign.2, hradix, hlit, hvalue]
    rfl

end BigInts

end AgentPay.DecimalStrings
