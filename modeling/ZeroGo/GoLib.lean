import ZeroGo.Basic

/-!
The Go standard-library functions the agent and the controller call on strings and
socket addresses, modelled from their documented behaviour: `encoding/hex`,
`fmt.Sprintf(":%d")` and `fmt.Sscanf("%d")` on a `uint32`, and `net.UDPAddr` with
`IP.Equal`, `SplitHostPort` and `ResolveUDPAddr`. Name resolution of a host that is
not an IPv4 literal is the `lookupHost` argument.
-/

namespace ZeroGo

/-! ### `encoding/hex` -/

def hexDigitVal? (c : Char) : Option Nat :=
  if '0' ≤ c ∧ c ≤ '9' then some (c.toNat - '0'.toNat)
  else if 'a' ≤ c ∧ c ≤ 'f' then some (c.toNat - 'a'.toNat + 10)
  else if 'A' ≤ c ∧ c ≤ 'F' then some (c.toNat - 'A'.toNat + 10)
  else none

def decodeHexChars : List Char → Option (List UInt8)
  | [] => some []
  | [_] => none
  | a :: b :: rest => do
      let hi ← hexDigitVal? a
      let lo ← hexDigitVal? b
      let tl ← decodeHexChars rest
      pure (UInt8.ofNat (hi * 16 + lo) :: tl)

/-- `hex.DecodeString`; `none` is any of its errors. -/
def hexDecodeString (s : String) : Option (List UInt8) := decodeHexChars s.toList

def hexDigitChar (n : Nat) : Char :=
  if n < 10 then Char.ofNat ('0'.toNat + n) else Char.ofNat ('a'.toNat + n - 10)

/-- `hex.EncodeToString`: two lower-case digits a byte. -/
def hexEncodeToString (bs : List UInt8) : String :=
  String.mk (bs.flatMap fun b => [hexDigitChar (b.toNat / 16), hexDigitChar (b.toNat % 16)])

/-- `Address.String`. -/
def Address.toHex (a : Address) : String := hexEncodeToString [a.b0, a.b1, a.b2, a.b3, a.b4]

/-- `AddressFromHex`: exactly five hex-encoded bytes. The error of `hex.DecodeString` that
Go wraps after `invalid hex address: ` is left out. -/
def addressFromHex (s : String) : Except String Address :=
  match hexDecodeString s with
  | some [b0, b1, b2, b3, b4] => .ok ⟨b0, b1, b2, b3, b4⟩
  | some b => .error ("address must be 5 bytes, got " ++ toString b.length)
  | none => .error "invalid hex address"

/-! ### `fmt` -/

/-- The decimal digits of a natural number, as `%d` prints them. -/
def decimalString (n : Nat) : String := toString n

/-- `fmt.Sprintf(":%d", port)`: an address with an empty host. -/
def portOnlyAddress (port : Nat) : String := ":" ++ decimalString port

def IsPortOnly (ep : String) : Prop := ∃ port, ep = portOnlyAddress port

def digitsValue : List Char → Nat → Nat
  | [], acc => acc
  | c :: cs, acc => digitsValue cs (acc * 10 + (c.toNat - '0'.toNat))

/-- The blanks of `fmt`'s `space` table, which `SkipSpace` passes over. -/
def isScanSpace (c : Char) : Bool :=
  let n := c.toNat
  (9 ≤ n && n ≤ 13) || n == 0x20 || n == 0x85 || n == 0xa0 || n == 0x1680 ||
    (0x2000 ≤ n && n ≤ 0x200a) || n == 0x2028 || n == 0x2029 || n == 0x202f || n == 0x205f ||
    n == 0x3000

/-- `SkipSpace` as `Sscanf` runs it: blanks are passed over, and a newline is the error
"unexpected newline" (`none`). A carriage return is passed over like a blank. -/
def skipSpace : List Char → Option (List Char)
  | [] => some []
  | c :: cs => if c = '\n' then none else if isScanSpace c then skipSpace cs else some (c :: cs)

/-- `fmt.Sscanf(s, "%d", &v)` into a `uint32` that starts at zero: `SkipSpace`, then the
longest run of decimal digits, with no sign, as `scanUint` reads one. On any scan error (a
newline before the number, no digit, a value over 32 bits) `v` keeps its zero; what follows
the digits is not read. -/
def scanUint32 (s : String) : UInt32 :=
  match skipSpace s.toList with
  | none => 0
  | some cs =>
      let digits := cs.takeWhile Char.isDigit
      let n := digitsValue digits 0
      if digits = [] ∨ 2 ^ 32 ≤ n then 0 else UInt32.ofNat n

/-! ### `net` -/

/-- A `*net.UDPAddr`; an empty `ip` is Go's nil IP. -/
structure UDPAddr where
  ip : List UInt8
  port : Nat
  deriving DecidableEq, Repr

def v4InV6Prefix : List UInt8 := [0, 0, 0, 0, 0, 0, 0, 0, 0, 0, 0xff, 0xff]

/-- `IP.Equal`: byte equality, an IPv4 address also equal to its IPv6 form. -/
def ipEqual (ip x : List UInt8) : Bool :=
  if ip.length = x.length then ip == x
  else if ip.length = 4 ∧ x.length = 16 then x.take 12 == v4InV6Prefix && ip == x.drop 12
  else if ip.length = 16 ∧ x.length = 4 then ip.take 12 == v4InV6Prefix && ip.drop 12 == x
  else false

theorem ipEqual_self (ip : List UInt8) : ipEqual ip ip = true := by
  simp [ipEqual]

/-- `SplitHostPort`: split at the last colon, a bracketed host losing its brackets; an
unbracketed host that still holds a colon is an error. -/
def splitHostPort (hostport : String) : Option (String × String) :=
  match hostport.toList.reverse.span (· ≠ ':') with
  | (_, []) => none
  | (portRev, _ :: hostRev) =>
      let host := hostRev.reverse
      let port := String.mk portRev.reverse
      if host.head? = some '[' ∧ host.getLast? = some ']' then
        some (String.mk ((host.drop 1).dropLast), port)
      else if ':' ∈ host then none
      else some (String.mk host, port)

/-- A port: empty for zero, or decimal digits up to 65535. -/
def parsePort (port : String) : Option Nat :=
  if port.isEmpty then some 0
  else if port.toList.all Char.isDigit ∧ digitsValue port.toList 0 ≤ 65535 then
    some (digitsValue port.toList 0)
  else none

/-- A dotted-quad IPv4 literal: four decimal fields up to 255, none with a leading zero. -/
def parseIPv4 (host : String) : Option (List UInt8) :=
  let parts := host.toList.splitOn '.'
  if parts.length = 4 ∧ parts.all (fun p => !p.isEmpty ∧ p.all Char.isDigit ∧
      (p.length = 1 ∨ p.head? ≠ some '0') ∧ digitsValue p 0 ≤ 255) then
    some (parts.map fun p => UInt8.ofNat (digitsValue p 0))
  else none

/-- `net.ResolveUDPAddr("udp", address)`: an empty host gives the nil IP. -/
def resolveUDPAddr (lookupHost : String → Option (List UInt8)) (address : String) :
    Except String UDPAddr :=
  match splitHostPort address with
  | none => .error "missing port in address"
  | some (host, port) =>
      match parsePort port with
      | none => .error "unknown port"
      | some p =>
          if host.isEmpty then .ok ⟨[], p⟩
          else match parseIPv4 host with
            | some ip => .ok ⟨ip, p⟩
            | none =>
                match lookupHost host with
                | some ip => .ok ⟨ip, p⟩
                | none => .error "no such host"

/-! ### Decimal digits -/

theorem digitChar_spec : ∀ d < 10, (Nat.digitChar d).isDigit = true ∧
    (Nat.digitChar d).toNat - '0'.toNat = d ∧ (Nat.digitChar d = '0' → d = 0) := by
  decide

theorem digitsValue_append (l₁ l₂ : List Char) (acc : Nat) :
    digitsValue (l₁ ++ l₂) acc = digitsValue l₂ (digitsValue l₁ acc) := by
  induction l₁ generalizing acc with
  | nil => rfl
  | cons c cs ih => exact ih _

theorem toDigitsCore_spec (fuel n : Nat) (ds : List Char) (hn : n < fuel) :
    ∃ cs, Nat.toDigitsCore 10 fuel n ds = cs ++ ds ∧ cs ≠ [] ∧ (∀ c ∈ cs, c.isDigit = true) ∧
      digitsValue cs 0 = n ∧ (cs.head? = some '0' → n = 0) := by
  induction fuel generalizing n ds with
  | zero => omega
  | succ fuel ih =>
    obtain ⟨hdig, hval, hzero⟩ := digitChar_spec (n % 10) (Nat.mod_lt n (by omega))
    change ∃ cs, (if n / 10 = 0 then Nat.digitChar (n % 10) :: ds
      else Nat.toDigitsCore 10 fuel (n / 10) (Nat.digitChar (n % 10) :: ds)) = cs ++ ds ∧ _
    split
    · next h0 =>
      refine ⟨[Nat.digitChar (n % 10)], rfl, List.cons_ne_nil _ _, by simpa using hdig, ?_, ?_⟩
      · simp only [digitsValue, hval]; omega
      · intro h; have := hzero (Option.some_inj.1 h); omega
    · next h0 =>
      obtain ⟨cs, hcs, hne, hall, hv, hh⟩ := ih (n / 10) _ (by omega)
      refine ⟨cs ++ [Nat.digitChar (n % 10)], by rw [hcs, List.append_assoc]; rfl,
        by simp, fun c hc => ?_, ?_, fun h => ?_⟩
      · rcases List.mem_append.1 hc with hc | hc
        · exact hall c hc
        · rw [List.mem_singleton.1 hc]; exact hdig
      · rw [digitsValue_append, hv]; simp only [digitsValue, hval]; omega
      · rw [List.head?_append_of_ne_nil _ hne] at h; exact absurd (hh h) h0

theorem decimalString_spec (n : Nat) :
    (decimalString n).toList ≠ [] ∧ (∀ c ∈ (decimalString n).toList, c.isDigit = true) ∧
      digitsValue (decimalString n).toList 0 = n ∧
      ((decimalString n).toList.head? = some '0' → (decimalString n).toList = ['0']) := by
  obtain ⟨cs, hcs, hne, hall, hv, hh⟩ := toDigitsCore_spec (n + 1) n [] (by omega)
  have h : (decimalString n).toList = cs := hcs.trans (List.append_nil cs)
  rw [h]
  refine ⟨hne, hall, hv, fun h0 => ?_⟩
  rw [← h, hh h0]; rfl

theorem not_mem_decimalString {c : Char} (hc : c.isDigit = false) (n : Nat) :
    c ∉ (decimalString n).toList :=
  fun h => by simpa [hc] using (decimalString_spec n).2.1 c h

/-! ### Dotted quads -/

theorem parseIPv4_dotted {bs : List UInt8} (hlen : bs.length = 4) :
    parseIPv4 (".".intercalate (bs.map fun b => decimalString b.toNat)) = some bs := by
  obtain ⟨b0, b1, b2, b3, rfl⟩ : ∃ b0 b1 b2 b3, bs = [b0, b1, b2, b3] := by
    match bs, hlen with
    | [b0, b1, b2, b3], _ => exact ⟨b0, b1, b2, b3, rfl⟩
  have htl : (".".intercalate ([b0, b1, b2, b3].map fun b => decimalString b.toNat)).toList =
      ['.'].intercalate ([b0, b1, b2, b3].map fun b => (decimalString b.toNat).toList) := by
    simp [String.intercalate, String.intercalate.go, String.toList, List.intercalate]
  have hsplit := List.splitOn_intercalate
    ([b0, b1, b2, b3].map fun b => (decimalString b.toNat).toList) '.' (by
      simp only [List.map, List.mem_cons, List.mem_nil_iff, or_false]
      rintro l (rfl | rfl | rfl | rfl) <;> exact not_mem_decimalString (by decide) _) (by simp)
  rw [← htl] at hsplit
  have hok (b : UInt8) : decide ((!(decimalString b.toNat).toList.isEmpty) = true ∧
      (decimalString b.toNat).toList.all Char.isDigit = true ∧
      ((decimalString b.toNat).toList.length = 1 ∨ (decimalString b.toNat).toList.head? ≠ some '0') ∧
      digitsValue (decimalString b.toNat).toList 0 ≤ 255) = true := by
    obtain ⟨hne, hdig, hv, hz⟩ := decimalString_spec b.toNat
    have hlt : b.toNat < 256 := b.toNat_lt_size
    refine decide_eq_true ⟨by simpa [List.isEmpty_iff] using hne, List.all_eq_true.2 hdig, ?_,
      by omega⟩
    by_cases h0 : (decimalString b.toNat).toList.head? = some '0'
    · exact .inl (by rw [hz h0]; rfl)
    · exact .inr h0
  have hval (b : UInt8) : UInt8.ofNat (digitsValue (decimalString b.toNat).toList 0) = b := by
    rw [(decimalString_spec b.toNat).2.2.1]
    exact UInt8.toNat.inj (by simp [uint8_toNat_ofNat, b.toNat_lt_size])
  simp only [List.map] at hsplit
  simp only [parseIPv4, List.map, hsplit, List.length, List.all_cons, List.all_nil, hok, hval,
    Bool.and_true]
  rfl

/-! ### Addresses with an empty host -/

theorem splitHostPort_portOnlyAddress (port : Nat) :
    splitHostPort (portOnlyAddress port) = some ("", decimalString port) := by
  have hrev : (portOnlyAddress port).toList.reverse =
      (decimalString port).toList.reverse ++ [':'] := by
    simp [portOnlyAddress, String.toList]
  have hspan : ((decimalString port).toList.reverse ++ [':']).span (· ≠ ':') =
      ((decimalString port).toList.reverse, [':']) := by
    rw [List.span_eq_take_drop, List.takeWhile_append_of_pos, List.dropWhile_append_of_pos]
    · simp
    all_goals
      intro c hc
      have : c ≠ ':' := fun h =>
        not_mem_decimalString (by decide) port (h ▸ List.mem_reverse.mp hc)
      simpa using this
  simp only [splitHostPort, hrev, hspan, List.reverse_nil, List.head?_nil, List.reverse_reverse]
  rfl

theorem resolveUDPAddr_portOnlyAddress (lookupHost : String → Option (List UInt8))
    (port : Nat) {a : UDPAddr}
    (h : resolveUDPAddr lookupHost (portOnlyAddress port) = .ok a) : a.ip = [] := by
  simp only [resolveUDPAddr, splitHostPort_portOnlyAddress] at h
  split at h
  · cases h
  · simp only [String.isEmpty, String.endPos, String.utf8ByteSize, ite_true] at h
    cases h
    rfl

/-! ### Round trips

What the agent prints with `hex.EncodeToString`, `Address.String` and `%d`, the controller
stores and sends back verbatim, and the receiving agent reads with `hex.DecodeString`,
`AddressFromHex` and `Sscanf`: each reading gives back what was printed. -/

theorem hexDigitVal?_hexDigitChar : ∀ d < 16, hexDigitVal? (hexDigitChar d) = some d := by
  decide

theorem decodeHexChars_hex (bs : List UInt8) :
    decodeHexChars (bs.flatMap fun b => [hexDigitChar (b.toNat / 16), hexDigitChar (b.toNat % 16)]) =
      some bs := by
  induction bs with
  | nil => rfl
  | cons b bs ih =>
      have hb : b.toNat < 256 := b.toNat_lt_size
      have hbyte : UInt8.ofNat (b.toNat / 16 * 16 + b.toNat % 16) = b :=
        UInt8.toNat.inj (by rw [uint8_toNat_ofNat]; omega)
      rw [List.flatMap_cons, List.cons_append, List.singleton_append]
      simp only [decodeHexChars, hexDigitVal?_hexDigitChar _ (by omega : b.toNat / 16 < 16),
        hexDigitVal?_hexDigitChar _ (Nat.mod_lt _ (by omega : 16 > 0)), ih]
      exact congrArg (fun x => some (x :: bs)) hbyte

theorem hexDecodeString_hexEncodeToString (bs : List UInt8) :
    hexDecodeString (hexEncodeToString bs) = some bs :=
  decodeHexChars_hex bs

theorem addressFromHex_toHex (a : Address) : addressFromHex a.toHex = .ok a := by
  simp only [addressFromHex, Address.toHex, hexDecodeString_hexEncodeToString]

end ZeroGo
