import AgentPay.DecimalStrings

/-!
# Addresses as text

`str::parse::<IpAddr>` of the standard library: a dotted quad without leading zeros, or
eight groups of hexadecimal digits, of which one run may be left out and the last two may
be written as a dotted quad. The parser reads from the front, gives back what is left, and
must leave nothing.
-/
namespace AgentPay.IpAddresses
open PolicyRules (Text)
open DecimalStrings (natToString decimals)

inductive IpAddr where
  | v4 (a b c d : UInt8)
  | v6 (groups : Vector UInt16 8)
deriving DecidableEq

/-! ### The parser -/

/-- `char::to_digit`. -/
def toDigit (radix : ℕ) (c : Char) : Option ℕ :=
  ("0123456789abcdef".toList.idxOf? c.toLower).filter (· < radix)

def numberOf (radix : ℕ) (digits : Text) : ℕ :=
  digits.foldl (fun n c => radix * n + (toDigit radix c).getD 0) 0

/-- `read_number`, for a type of numbers below `bound`. -/
def readNumber (radix maxDigits : ℕ) (allowZeroPrefix : Bool) (bound : ℕ) (s : Text) :
    Option (ℕ × Text) :=
  let digits := s.takeWhile fun c => (toDigit radix c).isSome
  if digits = [] ∨ maxDigits < digits.length then none
  else if ¬allowZeroPrefix ∧ digits.head? = some '0' ∧ 1 < digits.length then none
  else if numberOf radix digits < bound then some (numberOf radix digits, s.drop digits.length)
  else none

/-- `read_given_char`. -/
def readGivenChar (target : Char) : Text → Option Text
  | [] => none
  | c :: s => if c = target then some s else none

/-- `read_separator`: none stands in front of the first. -/
def readSeparator {α : Type} (sep : Char) (index : ℕ) (inner : Text → Option (α × Text))
    (s : Text) : Option (α × Text) :=
  if 0 < index then (readGivenChar sep s).bind inner else inner s

def readOctet (index : ℕ) (s : Text) : Option (UInt8 × Text) :=
  (readSeparator '.' index (readNumber 10 3 false 256) s).map fun r => (UInt8.ofNat r.1, r.2)

def readIpv4Addr (s : Text) : Option ((UInt8 × UInt8 × UInt8 × UInt8) × Text) := do
  let (a, s) ← readOctet 0 s
  let (b, s) ← readOctet 1 s
  let (c, s) ← readOctet 2 s
  let (d, s) ← readOctet 3 s
  pure ((a, b, c, d), s)

def fromBeBytes (a b : UInt8) : UInt16 := UInt16.ofNat (256 * a.toNat + b.toNat)

/-- `read_groups` with `left` groups to go: the groups, whether a dotted quad ends them, and
what is left. -/
def readGroups : ℕ → ℕ → Text → List UInt16 × Bool × Text
  | 0, _, s => ([], false, s)
  | left + 1, index, s =>
    match if 0 < left then readSeparator ':' index readIpv4Addr s else none with
    | some ((a, b, c, d), s) => ([fromBeBytes a b, fromBeBytes c d], true, s)
    | none =>
      match readSeparator ':' index (readNumber 16 4 true 65536) s with
      | some (group, s) =>
        let (groups, quad, s) := readGroups left (index + 1) s
        (UInt16.ofNat group :: groups, quad, s)
      | none => ([], false, s)

/-- Zeros stand where the groups were left out. -/
def groupsOf (head tail : List UInt16) : Vector UInt16 8 :=
  Vector.ofFn fun i =>
    (head ++ List.replicate (8 - head.length - tail.length) 0 ++ tail).getD i.val 0

def readIpv6Addr (s : Text) : Option (Vector UInt16 8 × Text) :=
  let (head, quad, s) := readGroups 8 0 s
  if head.length = 8 then some (groupsOf head [], s)
  else if quad then none
  else do
    let s ← readGivenChar ':' s
    let s ← readGivenChar ':' s
    let (tail, _, s) := readGroups (8 - (head.length + 1)) 0 s
    pure (groupsOf head tail, s)

def readIpAddr (s : Text) : Option (IpAddr × Text) :=
  match readIpv4Addr s with
  | some ((a, b, c, d), s) => some (.v4 a b c d, s)
  | none => (readIpv6Addr s).map fun r => (.v6 r.1, r.2)

/-- `str::parse::<IpAddr>`. -/
def parseIpAddr (s : Text) : Option IpAddr :=
  match readIpAddr s with
  | some (ip, []) => some ip
  | _ => none

/-! ### Dotted quads -/

/-- How an address of four octets is displayed. -/
def displayV4 (a b c d : UInt8) : Text :=
  natToString a.toNat ++ '.' :: (natToString b.toNat ++ '.' ::
    (natToString c.toNat ++ '.' :: natToString d.toNat))

def IsOctet (n : ℕ) (ds : Text) : Prop :=
  ds.all (fun c => (toDigit 10 c).isSome) ∧ numberOf 10 ds = n ∧ ds ≠ [] ∧ ds.length ≤ 3 ∧
    (ds.head? = some '0' → ds.length ≤ 1)

instance (n : ℕ) (ds : Text) : Decidable (IsOctet n ds) :=
  inferInstanceAs (Decidable (ds.all (fun c => (toDigit 10 c).isSome) ∧ numberOf 10 ds = n ∧
    ds ≠ [] ∧ ds.length ≤ 3 ∧ (ds.head? = some '0' → ds.length ≤ 1)))

theorem natToString_octet : ∀ n < 256, IsOctet n (natToString n) := by
  decide +kernel

section Quads
variable {n index : ℕ} {ds s : Text}

theorem readNumber_octet (h : IsOctet n ds) (hn : n < 256)
    (hs : ∀ c ∈ s.head?, (toDigit 10 c).isSome = false) :
    readNumber 10 3 false 256 (ds ++ s) = some (n, s) := by
  obtain ⟨hdigits, hvalue, hne, hlen, hzero⟩ := h
  have hrest : s.takeWhile (fun c => (toDigit 10 c).isSome) = [] := by
    rcases s with _ | ⟨c, s⟩
    · rfl
    · exact List.takeWhile_cons_of_neg (by simpa using hs c rfl)
  have htake : (ds ++ s).takeWhile (fun c => (toDigit 10 c).isSome) = ds := by
    rw [List.takeWhile_append_of_pos (List.all_eq_true.mp hdigits), hrest, List.append_nil]
  have hprefix : ¬(¬(false = true) ∧ ds.head? = some '0' ∧ 1 < ds.length) := by
    rintro ⟨-, hhead, hlong⟩
    have := hzero hhead
    omega
  simp only [readNumber, htake]
  rw [if_neg (by simp [hne]; omega), if_neg hprefix, hvalue, if_pos hn, List.drop_left]

theorem readOctet_first (a : UInt8) (hs : ∀ c ∈ s.head?, (toDigit 10 c).isSome = false) :
    readOctet 0 (natToString a.toNat ++ s) = some (a, s) := by
  have ha := a.toNat_lt
  have hread := readNumber_octet (natToString_octet a.toNat ha) ha hs
  simp [readOctet, readSeparator, hread]

theorem readOctet_next (a : UInt8) (hi : 0 < index)
    (hs : ∀ c ∈ s.head?, (toDigit 10 c).isSome = false) :
    readOctet index ('.' :: (natToString a.toNat ++ s)) = some (a, s) := by
  have ha := a.toNat_lt
  have hread := readNumber_octet (natToString_octet a.toNat ha) ha hs
  simp [readOctet, readSeparator, readGivenChar, hi, hread]

theorem parseIpAddr_displayV4 (a b c d : UInt8) :
    parseIpAddr (displayV4 a b c d) = some (.v4 a b c d) := by
  have hdot : ∀ s : Text, ∀ x ∈ ('.' :: s).head?, (toDigit 10 x).isSome = false := by
    rintro s x hx
    obtain rfl : '.' = x := Option.some.inj hx
    decide
  have hend : readOctet 3 ('.' :: natToString d.toNat) = some (d, []) := by
    simpa using @readOctet_next 3 [] d (by decide) nofun
  have hquad : readIpv4Addr (displayV4 a b c d) = some ((a, b, c, d), []) := by
    rw [readIpv4Addr, displayV4, readOctet_first a (hdot _)]
    simp [readOctet_next b one_pos (hdot _), readOctet_next c two_pos (hdot _), hend]
  simp [parseIpAddr, readIpAddr, hquad]

end Quads

/-! The other forms, and what is refused. -/

example : parseIpAddr "2001:db8::1.2.3.4".toList =
    some (.v6 #v[0x2001, 0xdb8, 0, 0, 0, 0, 0x102, 0x304]) := by decide
example : parseIpAddr "127.0.0.01".toList = none := by decide
example : parseIpAddr "1.2.3.4::".toList = none := by decide

end AgentPay.IpAddresses
