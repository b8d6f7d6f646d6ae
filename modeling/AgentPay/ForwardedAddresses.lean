import AgentPay.ControlRequests
import AgentPay.IpAddresses

/-!
# The address a limit is keyed on

`client_ip_with` of `ratelimit.rs`. From a peer that is no trusted proxy the header is
ignored. From one that is, the entries are read from the right, and the first that parses
and is not itself trusted is taken: what the client wrote stands further left and is never
reached. But the header is read as text first, and one byte that is not visible ASCII
anywhere in it, the client's part included, makes the whole of it unusable: then the peer
is taken, and its clients share a bucket.

`HeaderValue::to_str` belongs to another package and is a parameter. A request has one
header of the name here: of several the code reads the first.
-/
namespace AgentPay.ForwardedAddresses
open PolicyRules (Text)
open ControlRequests (trim)
open IpAddresses

/-- The bytes of a header: no control characters but the tab. -/
structure HeaderValue where
  bytes : List UInt8
  valid : bytes.all (fun b => 32 ≤ b && b != 127 || b == 9)

def isVisibleAscii (b : UInt8) : Bool := 32 ≤ b && b < 127 || b == 9

def charsOf (bytes : List UInt8) : Text := bytes.map fun b => Char.ofNat b.toNat

/-- `HeaderValue::to_str`: text if all of it is visible ASCII. -/
def YieldsVisibleAscii (toStr : HeaderValue → Option Text) : Prop :=
  ∀ v, toStr v = if v.bytes.all isVisibleAscii then some (charsOf v.bytes) else none

section ClientIp
variable (toStr : HeaderValue → Option Text) (trusted : List IpAddr)

/-- The loop over the hops: malformed entries and trusted ones are skipped. -/
def firstUntrusted : List Text → Option IpAddr
  | [] => none
  | hop :: hops =>
    match parseIpAddr (trim hop) with
    | none => firstUntrusted hops
    | some ip => if ip ∈ trusted then firstUntrusted hops else some ip

/-- A request that did not arrive over TCP has no peer. -/
def peerOf (connection : Option IpAddr) : IpAddr := connection.getD (.v4 0 0 0 0)

/-- `header` is the value of the one `X-Forwarded-For` line of the request. Where a proxy
adds a line of its own instead of an entry, the code reads the first line only, and the
later ones are not modelled. -/
def clientIpWith (connection : Option IpAddr) (header : Option HeaderValue) : IpAddr :=
  let peer := peerOf connection
  if trusted = [] ∨ peer ∉ trusted then peer
  else
    match header.bind toStr with
    | none => peer
    | some xff => (firstUntrusted trusted (xff.splitOn ',').reverse).getD peer

end ClientIp

/-! ### The walk -/

/-- Among the entries of a header, the last that parses as an address outside the list. -/
def Rightmost (trusted : List IpAddr) (hops : List Text) (ip : IpAddr) : Prop :=
  ∃ before hop after, hops = before ++ hop :: after ∧ parseIpAddr (trim hop) = some ip ∧
    ip ∉ trusted ∧ ∀ h ∈ after, ∀ ip', parseIpAddr (trim h) = some ip' → ip' ∈ trusted

section Walk
variable {trusted : List IpAddr} {hops hops' : List Text} {ip : IpAddr} {bytes : List UInt8}
variable {own appended : List UInt8}

theorem firstUntrusted_append : firstUntrusted trusted (hops ++ hops') =
    (firstUntrusted trusted hops).or (firstUntrusted trusted hops') := by
  induction hops with
  | nil => rfl
  | cons hop hops ih =>
    rw [List.cons_append, firstUntrusted, firstUntrusted]
    rcases parseIpAddr (trim hop) with _ | ip
    · exact ih
    · simp only
      split_ifs
      · exact ih
      · rfl

/-- Entries that name no address outside the list are passed over. -/
theorem firstUntrusted_eq_none
    (h : ∀ hop ∈ hops, ∀ ip, parseIpAddr (trim hop) = some ip → ip ∈ trusted) :
    firstUntrusted trusted hops = none := by
  induction hops with
  | nil => rfl
  | cons hop hops ih =>
    obtain ⟨hhop, hrest⟩ := List.forall_mem_cons.mp h
    rw [firstUntrusted]
    rcases hparse : parseIpAddr (trim hop) with _ | ip
    · exact ih hrest
    · simp only [if_pos (hhop ip hparse)]
      exact ih hrest

theorem firstUntrusted_reverse (h : Rightmost trusted hops ip) :
    firstUntrusted trusted hops.reverse = some ip := by
  obtain ⟨before, hop, after, rfl, hparse, hout, hafter⟩ := h
  have hskip : firstUntrusted trusted after.reverse = none :=
    firstUntrusted_eq_none fun h hh => hafter h (List.mem_reverse.mp hh)
  have hhop : firstUntrusted trusted (hop :: before.reverse) = some ip := by
    rw [firstUntrusted, hparse]
    exact if_neg hout
  rw [List.reverse_append, List.reverse_cons, List.append_assoc, List.singleton_append,
    firstUntrusted_append, hskip, hhop]
  rfl

/-- If any entry parses as an address outside the list, there is a rightmost. -/
theorem exists_rightmost (h : ∃ hop ∈ hops, ∃ ip, parseIpAddr (trim hop) = some ip ∧ ip ∉ trusted) :
    ∃ ip, Rightmost trusted hops ip := by
  induction hops with
  | nil => simp at h
  | cons hop hops ih =>
    by_cases hrest : ∃ hop ∈ hops, ∃ ip, parseIpAddr (trim hop) = some ip ∧ ip ∉ trusted
    · obtain ⟨ip, before, hop', after, rfl, hip⟩ := ih hrest
      exact ⟨ip, hop :: before, hop', after, rfl, hip⟩
    · obtain ⟨hop', hmem, ip, hparse, hout⟩ := h
      rcases List.mem_cons.mp hmem with rfl | hmem
      · refine ⟨ip, [], hop', hops, rfl, hparse, hout, fun h hh ip' hparse' => ?_⟩
        by_contra hout'
        exact hrest ⟨h, hh, ip', hparse', hout'⟩
      · exact absurd ⟨hop', hmem, ip, hparse, hout⟩ hrest

/-- What stands in front of a comma is walked last. -/
theorem firstUntrusted_appended (h : Rightmost trusted ((charsOf appended).splitOn ',') ip) :
    firstUntrusted trusted ((charsOf (own ++ 44 :: appended)).splitOn ',').reverse = some ip := by
  have hsplit : (charsOf (own ++ 44 :: appended)).splitOn ',' =
      (charsOf own).splitOn ',' ++ (charsOf appended).splitOn ',' := by
    rw [charsOf, List.map_append, List.map_cons]
    exact List.splitOn_append_cons_of_beq _ _ rfl
  rw [hsplit, List.reverse_append, firstUntrusted_append, firstUntrusted_reverse h]
  rfl

end Walk

section Keys
variable {toStr : HeaderValue → Option Text} {trusted : List IpAddr} {connection : Option IpAddr}
variable {header : Option HeaderValue} {ip : IpAddr} {v : HeaderValue} {own appended : List UInt8}

theorem clientIp_untrusted (h : peerOf connection ∉ trusted) :
    clientIpWith toStr trusted connection header = peerOf connection := by
  rw [clientIpWith, if_pos (.inr h)]

theorem clientIp_trusted (h : peerOf connection ∈ trusted) :
    clientIpWith toStr trusted connection header =
      match header.bind toStr with
      | none => peerOf connection
      | some xff =>
        (firstUntrusted trusted (xff.splitOn ',').reverse).getD (peerOf connection) := by
  have hlist : ¬(trusted = [] ∨ peerOf connection ∉ trusted) := by
    rintro (rfl | hout)
    · cases h
    · exact hout h
  rw [clientIpWith, if_neg hlist]

/-- A client chooses neither of the two keys, but it chooses between them: the address its
proxies vouch for is taken exactly if all of the header is visible ASCII. -/
theorem clientIp_vouched_iff (hto : YieldsVisibleAscii toStr) :
    (∀ trusted connection header, peerOf connection ∉ trusted →
      clientIpWith toStr trusted connection header = peerOf connection) ∧
    ∀ trusted connection (v : HeaderValue) own appended ip, peerOf connection ∈ trusted →
      v.bytes = own ++ 44 :: appended → Rightmost trusted ((charsOf appended).splitOn ',') ip →
        (clientIpWith toStr trusted connection (some v) = ip ↔
          ∀ b ∈ v.bytes, isVisibleAscii b) := by
  refine ⟨fun trusted connection header h => clientIp_untrusted h,
    fun trusted connection v own appended ip hin hv hright => ?_⟩
  rw [clientIp_trusted hin, Option.bind_some, hto v]
  split_ifs with hascii
  · rw [hv]
    simp only [firstUntrusted_appended hright, Option.getD_some, true_iff]
    rw [← hv]
    exact List.all_eq_true.mp hascii
  · have hout : peerOf connection ≠ ip := by
      obtain ⟨-, -, -, -, -, hout, -⟩ := hright
      exact fun h => hout (h ▸ hin)
    exact iff_of_false hout fun h => hascii (List.all_eq_true.mpr h)

end Keys

/-! ### One byte of the client -/

def visibleText (v : HeaderValue) : Option Text :=
  if v.bytes.all isVisibleAscii then some (charsOf v.bytes) else none

def asciiOf (s : Text) : List UInt8 := s.map fun c => UInt8.ofNat c.toNat

/-- What a proxy appends to an empty header, and to one of a single byte 233. -/
def plainHeader : HeaderValue := ⟨asciiOf ", 198.51.100.7".toList, by decide⟩

def opaqueHeader : HeaderValue := ⟨233 :: asciiOf ", 198.51.100.7".toList, by decide⟩

def home : IpAddr := .v4 127 0 0 1

theorem appended_rightmost :
    Rightmost [home] ((charsOf (asciiOf " 198.51.100.7".toList)).splitOn ',') (.v4 198 51 100 7) :=
  ⟨[], " 198.51.100.7".toList, [], by decide, by decide, by decide, by simp⟩

theorem clientIp_vouched_iff_plain :
    clientIpWith visibleText [home] (some home) (some plainHeader) = .v4 198 51 100 7 ↔
      ∀ b ∈ plainHeader.bytes, isVisibleAscii b :=
  (clientIp_vouched_iff fun _ => rfl).2 [home] (some home) plainHeader [] _ _ (by simp [peerOf]) rfl
    appended_rightmost

/-- The client's byte makes the address its proxy appended unreadable. -/
theorem opaque_byte_hides :
    opaqueHeader.bytes = [233] ++ 44 :: asciiOf " 198.51.100.7".toList ∧
      Rightmost [home] ((charsOf (asciiOf " 198.51.100.7".toList)).splitOn ',')
        (.v4 198 51 100 7) ∧
      clientIpWith visibleText [home] (some home) (some plainHeader) = .v4 198 51 100 7 ∧
      clientIpWith visibleText [home] (some home) (some opaqueHeader) = home :=
  ⟨by decide, appended_rightmost, by decide, by decide⟩

end AgentPay.ForwardedAddresses
