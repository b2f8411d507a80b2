import Mathlib.Data.Fintype.Basic
import Mathlib.Tactic.FinCases
import Commeatus.Lib.Text

/-!
IP addresses and their text form.

`IpAddr.parse` is the standard address parser: an IPv4 address is four decimal
octets of at most three digits without a leading zero; an IPv6 address is up to
eight groups of at most four hexadecimal digits with at most one `::`, and may
end in an embedded IPv4 address. `IpAddr.display` is the standard formatter,
with the longest run of two or more zero groups compressed and IPv4-mapped
addresses written with a dotted tail. The main results are that the parser
undoes the formatter, that it does not look at the case of letters, and that an
IPv6 text always holds a colon.
-/

namespace Commeatus.Lib

/-- An IPv4 address, as its four octets. -/
structure Ipv4Addr where
  a : UInt8
  b : UInt8
  c : UInt8
  d : UInt8
  deriving DecidableEq, Repr

/-- An IPv6 address, as its eight 16-bit segments. -/
structure Ipv6Addr where
  segment : Fin 8 → UInt16
  deriving DecidableEq

inductive IpAddr where
  | v4 (address : Ipv4Addr)
  | v6 (address : Ipv6Addr)
  deriving DecidableEq

/-- A socket address: an IP address and a port. -/
structure SocketAddr where
  ip : IpAddr
  port : UInt16
  deriving DecidableEq

/-! ### Octets and segments -/

/-- `u16::from_be_bytes`. -/
def fromBeBytes (high low : UInt8) : UInt16 := UInt16.ofNat (high.toNat * 256 + low.toNat)

/-- `u16::to_be_bytes`. -/
def toBeBytes (n : UInt16) : Bytes := [UInt8.ofNat (n.toNat / 256), UInt8.ofNat (n.toNat % 256)]

@[simp] theorem fromBeBytes_toBeBytes (n : UInt16) :
    fromBeBytes (UInt8.ofNat (n.toNat / 256)) (UInt8.ofNat (n.toNat % 256)) = n := by
  have := n.toNat_lt
  apply UInt16.toNat_inj.mp
  simp only [fromBeBytes, UInt8.toNat_ofNat', UInt16.toNat_ofNat']
  omega

def Ipv4Addr.octets (x : Ipv4Addr) : Bytes := [x.a, x.b, x.c, x.d]

def Ipv6Addr.segments (x : Ipv6Addr) : List UInt16 := List.ofFn x.segment

def Ipv6Addr.octets (x : Ipv6Addr) : Bytes := x.segments.flatMap toBeBytes

/-- An address from its segments; missing ones are zero. -/
def Ipv6Addr.ofSegments (l : List UInt16) : Ipv6Addr := ⟨fun i => l.getD i 0⟩

/-- An address from its sixteen octets. -/
def Ipv6Addr.ofOctets (o : Bytes) : Ipv6Addr :=
  ⟨fun i => fromBeBytes (o.getD (2 * i) 0) (o.getD (2 * i + 1) 0)⟩

/-- The octet at an index that is known to be in range. -/
def byteAt (bytes : Bytes) (index : Nat) : UInt8 := bytes.getD index 0

/-- The address of four octets in network order. -/
def Ipv4Addr.ofOctets (o : Bytes) : Ipv4Addr := ⟨byteAt o 0, byteAt o 1, byteAt o 2, byteAt o 3⟩

theorem byteAt_take {bytes : Bytes} {count index : Nat} (h : index < count) :
    byteAt (bytes.take count) index = byteAt bytes index := by
  simp [byteAt, List.getD_eq_getElem?_getD, h]

theorem byteAt_drop (bytes : Bytes) (count index : Nat) :
    byteAt (bytes.drop count) index = byteAt bytes (count + index) := by
  simp [byteAt, List.getD_eq_getElem?_getD, List.getElem?_drop]

theorem byteAt_append {bytes : Bytes} {index : Nat} (h : index < bytes.length) (more : Bytes) :
    byteAt (bytes ++ more) index = byteAt bytes index := by
  simp [byteAt, List.getD_eq_getElem?_getD, List.getElem?_append_left h]

@[simp] theorem Ipv4Addr.ofOctets_octets (x : Ipv4Addr) : ofOctets x.octets = x := rfl

theorem Ipv4Addr.ofOctets_take (bytes : Bytes) : ofOctets (bytes.take 4) = ofOctets bytes := by
  simp [ofOctets, byteAt_take]

theorem Ipv6Addr.ofOctets_take (bytes : Bytes) : ofOctets (bytes.take 16) = ofOctets bytes := by
  simp only [ofOctets, mk.injEq]
  funext i
  have even : 2 * (i : Nat) < 16 := by omega
  have odd : 2 * (i : Nat) + 1 < 16 := by omega
  simp [even, odd]

@[simp] theorem Ipv6Addr.ofSegments_segments (x : Ipv6Addr) : ofSegments x.segments = x := by
  cases x with
  | mk f =>
      simp only [ofSegments, segments, mk.injEq]
      funext i
      fin_cases i <;> rfl

@[simp] theorem Ipv6Addr.length_segments (x : Ipv6Addr) : x.segments.length = 8 := by
  simp [segments]

@[simp] theorem Ipv6Addr.length_octets (x : Ipv6Addr) : x.octets.length = 16 := by
  simp [octets, segments, toBeBytes, List.ofFn_succ]

@[simp] theorem Ipv6Addr.ofOctets_octets (x : Ipv6Addr) : ofOctets x.octets = x := by
  cases x with
  | mk f =>
      simp only [ofOctets, mk.injEq]
      funext i
      fin_cases i <;> simp [octets, segments, toBeBytes, List.ofFn_succ]

theorem toBeBytes_fromBeBytes (high low : UInt8) :
    toBeBytes (fromBeBytes high low) = [high, low] := by
  have small := high.toNat_lt
  have small' := low.toNat_lt
  have value : (fromBeBytes high low).toNat = high.toNat * 256 + low.toNat := by
    simp only [fromBeBytes, UInt16.toNat_ofNat']
    omega
  have quotient : (high.toNat * 256 + low.toNat) / 256 = high.toNat := by omega
  have remainder : (high.toNat * 256 + low.toNat) % 256 = low.toNat := by omega
  rw [toBeBytes, value, quotient, remainder, UInt8.ofNat_toNat, UInt8.ofNat_toNat]

theorem Ipv4Addr.octets_ofOctets {octets : Bytes} (length : octets.length = 4) :
    (Ipv4Addr.ofOctets octets).octets = octets := by
  match octets, length with
  | [_, _, _, _], _ => rfl

theorem Ipv6Addr.octets_ofOctets {octets : Bytes} (length : octets.length = 16) :
    (Ipv6Addr.ofOctets octets).octets = octets := by
  match octets, length with
  | [_, _, _, _, _, _, _, _, _, _, _, _, _, _, _, _], _ =>
      simp [Ipv6Addr.ofOctets, Ipv6Addr.octets, Ipv6Addr.segments, List.ofFn_succ,
        toBeBytes_fromBeBytes]

/-! ### The parser -/

def readGivenChar (c : Char) : Str → Option Str
  | x :: rest => if x = c then some rest else none
  | [] => none

/-- Read one number off the front: at most `maxDigits` digits, at most `max`. -/
def readNumber (radix maxDigits max : Nat) (allowZeroPrefix : Bool) (s : Str) :
    Option (Nat × Str) :=
  let digits := s.takeWhile (isDigitOf radix)
  if digits.isEmpty || decide (maxDigits < digits.length) then none
  else if !allowZeroPrefix && digits.head? == some '0' && decide (1 < digits.length) then none
  else if max < digitsValue radix digits then none
  else some (digitsValue radix digits, s.dropWhile (isDigitOf radix))

def readOctet (s : Str) : Option (UInt8 × Str) :=
  (readNumber 10 3 255 false s).map fun (n, rest) => (UInt8.ofNat n, rest)

def readGroup (s : Str) : Option (UInt16 × Str) :=
  (readNumber 16 4 65535 true s).map fun (n, rest) => (UInt16.ofNat n, rest)

def readIpv4 (s : Str) : Option (Ipv4Addr × Str) := do
  let (a, s) ← readOctet s
  let (b, s) ← readOctet (← readGivenChar '.' s)
  let (c, s) ← readOctet (← readGivenChar '.' s)
  let (d, s) ← readOctet (← readGivenChar '.' s)
  return (⟨a, b, c, d⟩, s)

/-- Read up to `remaining` colon-separated groups. The flag reports an embedded
IPv4 address, which takes the place of two groups and ends the run. -/
def readGroups : (remaining : Nat) → (first : Bool) → Str → List UInt16 × Bool × Str
  | 0, _, s => ([], false, s)
  | n + 1, first, s =>
      let separated := if first then some s else readGivenChar ':' s
      match if 0 < n then separated.bind readIpv4 else none with
      | some (x, rest) => ([fromBeBytes x.a x.b, fromBeBytes x.c x.d], true, rest)
      | none =>
          match separated.bind readGroup with
          | none => ([], false, s)
          | some (g, rest) =>
              let (gs, embedded, rest) := readGroups n false rest
              (g :: gs, embedded, rest)

def readIpv6 (s : Str) : Option (Ipv6Addr × Str) :=
  let (head, embedded, s) := readGroups 8 true s
  if head.length = 8 then some (.ofSegments head, s)
  else if embedded then none
  else do
    let s ← readGivenChar ':' s
    let s ← readGivenChar ':' s
    let (tail, _, s) := readGroups (8 - (head.length + 1)) true s
    return (.ofSegments (head ++ List.replicate (8 - head.length - tail.length) 0 ++ tail), s)

/-- `IpAddr::from_str`. -/
def IpAddr.parse (s : Str) : Option IpAddr :=
  match readIpv4 s with
  | some (x, rest) => if rest.isEmpty then some (.v4 x) else none
  | none =>
      match readIpv6 s with
      | some (x, rest) => if rest.isEmpty then some (.v6 x) else none
      | none => none

/-! ### The formatter -/

def Ipv4Addr.display (x : Ipv4Addr) : Str :=
  decimal x.a.toNat ++ '.' ::
    (decimal x.b.toNat ++ '.' :: (decimal x.c.toNat ++ '.' :: decimal x.d.toNat))

/-- Groups in hexadecimal, joined by colons. -/
def displayGroups : List UInt16 → Str
  | [] => []
  | [g] => hex g.toNat
  | g :: gs => hex g.toNat ++ ':' :: displayGroups gs

/-- A run of segments: where it starts and how long it is. -/
structure Span where
  start : Nat
  len : Nat
  deriving DecidableEq, Repr

/-- The first longest run of zero segments. -/
def longestZeros (index : Nat) (longest current : Span) : List UInt16 → Span
  | [] => longest
  | g :: gs =>
      if g = 0 then
        let current := ⟨if current.len = 0 then index else current.start, current.len + 1⟩
        longestZeros (index + 1) (if longest.len < current.len then current else longest) current gs
      else longestZeros (index + 1) longest ⟨0, 0⟩ gs

/-- The dotted tail of an IPv4-mapped address. -/
def Ipv6Addr.toIpv4Mapped (x : Ipv6Addr) : Option Ipv4Addr :=
  match x.segments with
  | [0, 0, 0, 0, 0, 0xffff, g, h] =>
      some ⟨UInt8.ofNat (g.toNat / 256), UInt8.ofNat (g.toNat % 256),
        UInt8.ofNat (h.toNat / 256), UInt8.ofNat (h.toNat % 256)⟩
  | _ => none

def Ipv6Addr.display (x : Ipv6Addr) : Str :=
  match x.toIpv4Mapped with
  | some mapped => "::ffff:".toList ++ mapped.display
  | none =>
      let zeros := longestZeros 0 ⟨0, 0⟩ ⟨0, 0⟩ x.segments
      if 1 < zeros.len then
        displayGroups (x.segments.take zeros.start) ++
          ':' :: ':' :: displayGroups (x.segments.drop (zeros.start + zeros.len))
      else displayGroups x.segments

def IpAddr.display : IpAddr → Str
  | .v4 x => x.display
  | .v6 x => x.display

def IpAddr.isIpv6 : IpAddr → Bool
  | .v4 _ => false
  | .v6 _ => true

def IpAddr.isUnspecified : IpAddr → Bool
  | .v4 x => x = ⟨0, 0, 0, 0⟩
  | .v6 x => x = .ofSegments []

/-! ### The alphabet of an address -/

/-- A character that the text of an address can have. -/
def isAddressChar (c : Char) : Bool := isDigitOf 16 c || c == ':' || c == '.'

theorem isDigitOf_hex_of_decimal {c : Char} (h : isDigitOf 10 c = true) :
    isDigitOf 16 c = true := by
  simp only [isDigitOf, toDigit, Option.isSome_filter, Option.any_eq_true, decide_eq_true_eq] at h ⊢
  obtain ⟨value, digit, small⟩ := h
  exact ⟨value, digit, by omega⟩

theorem isAddressChar_of_mem_decimal {n : Nat} {c : Char} (h : c ∈ decimal n) :
    isAddressChar c = true := by
  simp [isAddressChar, isDigitOf_hex_of_decimal (isDigitOf_of_mem_decimal h)]

theorem isAddressChar_of_mem_hex {n : Nat} {c : Char} (h : c ∈ hex n) : isAddressChar c = true := by
  simp [isAddressChar, isDigitOf_of_mem_toDigits (by omega) (by omega) n c h]

theorem length_decimal_le {n digits : Nat} (positive : 0 < digits) (h : n < 10 ^ digits) :
    (decimal n).length ≤ digits :=
  (Nat.length_toDigits_le_iff (by omega) positive).mpr h

theorem Ipv4Addr.mem_display {x : Ipv4Addr} {c : Char} (h : c ∈ x.display) :
    isDigitOf 10 c = true ∨ c = '.' := by
  simp only [display, List.mem_append, List.mem_cons] at h
  rcases h with h | rfl | h | rfl | h | rfl | h
  · exact .inl (isDigitOf_of_mem_decimal h)
  · exact .inr rfl
  · exact .inl (isDigitOf_of_mem_decimal h)
  · exact .inr rfl
  · exact .inl (isDigitOf_of_mem_decimal h)
  · exact .inr rfl
  · exact .inl (isDigitOf_of_mem_decimal h)

theorem Ipv4Addr.length_display (x : Ipv4Addr) : x.display.length ≤ 15 := by
  have octet : ∀ n : UInt8, (decimal n.toNat).length ≤ 3 := by
    intro n
    have := n.toNat_lt
    exact length_decimal_le (by omega) (by omega)
  have ha := octet x.a
  have hb := octet x.b
  have hc := octet x.c
  have hd := octet x.d
  simp only [display, List.length_append, List.length_cons]
  omega

theorem mem_displayGroups {gs : List UInt16} {c : Char} (h : c ∈ displayGroups gs) :
    isAddressChar c = true := by
  induction gs with
  | nil => cases h
  | cons g gs ih =>
      cases gs with
      | nil => exact isAddressChar_of_mem_hex h
      | cons g' gs' =>
          simp only [displayGroups, List.mem_append, List.mem_cons] at h
          rcases h with h | rfl | h
          · exact isAddressChar_of_mem_hex h
          · rfl
          · exact ih (by simpa [displayGroups] using h)

theorem length_displayGroups (gs : List UInt16) : (displayGroups gs).length ≤ 5 * gs.length := by
  have group : ∀ g : UInt16, (hex g.toNat).length ≤ 4 := by
    intro g
    have := g.toNat_lt
    exact (Nat.length_toDigits_le_iff (by omega) (by omega)).mpr (by omega)
  induction gs with
  | nil => simp [displayGroups]
  | cons g gs ih =>
      have := group g
      cases gs with
      | nil =>
          simp only [displayGroups, List.length_cons, List.length_nil]
          omega
      | cons g' gs' =>
          simp only [displayGroups, List.length_append, List.length_cons] at ih ⊢
          omega

theorem Ipv6Addr.mem_display {x : Ipv6Addr} {c : Char} (h : c ∈ x.display) :
    isAddressChar c = true := by
  unfold display at h
  split at h
  · rcases List.mem_append.mp h with h | h
    · have tag : c = ':' ∨ c = 'f' ∨ c = ':' := by simpa using h
      rcases tag with rfl | rfl | rfl <;> decide
    · rcases Ipv4Addr.mem_display h with digit | rfl
      · simp [isAddressChar, isDigitOf_hex_of_decimal digit]
      · rfl
  · dsimp only at h
    split at h
    · simp only [List.mem_append, List.mem_cons] at h
      rcases h with h | rfl | rfl | h
      · exact mem_displayGroups h
      · rfl
      · rfl
      · exact mem_displayGroups h
    · exact mem_displayGroups h

theorem Ipv6Addr.length_display (x : Ipv6Addr) : x.display.length ≤ 82 := by
  unfold display
  split
  · rename_i mapped _
    have := mapped.length_display
    rw [List.length_append]
    have tag : "::ffff:".toList.length = 7 := rfl
    omega
  · dsimp only
    split
    · simp only [List.length_append, List.length_cons]
      have front := length_displayGroups
        (x.segments.take (longestZeros 0 ⟨0, 0⟩ ⟨0, 0⟩ x.segments).start)
      have back := length_displayGroups (x.segments.drop
        ((longestZeros 0 ⟨0, 0⟩ ⟨0, 0⟩ x.segments).start +
          (longestZeros 0 ⟨0, 0⟩ ⟨0, 0⟩ x.segments).len))
      have frontSize :=
        List.length_take_le (longestZeros 0 ⟨0, 0⟩ ⟨0, 0⟩ x.segments).start x.segments
      simp only [List.length_drop, List.length_take, length_segments] at front back
      omega
    · have := length_displayGroups x.segments
      rw [length_segments] at this
      omega

theorem isAddressChar_ascii {c : Char} (h : isAddressChar c = true) : c.toNat < 128 := by
  simp only [isAddressChar, Bool.or_eq_true, beq_iff_eq] at h
  rcases h with (h | rfl) | rfl
  · by_contra large
    have notDigit : toDigit 16 c = none := by
      unfold toDigit
      dsimp only
      rw [if_neg (by omega), if_neg (by omega), if_neg (by omega)]
      rfl
    simp [isDigitOf, notDigit] at h
  · decide
  · decide

/-! ### Reading one number -/

/-- The text does not continue a run of digits. -/
def NoDigit (radix : Nat) (s : Str) : Prop := ∀ c, s.head? = some c → isDigitOf radix c = false

theorem noDigit_nil (radix : Nat) : NoDigit radix [] := by
  simp [NoDigit]

theorem noDigit_cons {radix : Nat} {c : Char} {s : Str} (h : isDigitOf radix c = false) :
    NoDigit radix (c :: s) := by
  simpa [NoDigit] using h

theorem takeWhile_digits {radix : Nat} {d rest : Str} (all : ∀ c ∈ d, isDigitOf radix c = true)
    (stop : NoDigit radix rest) : (d ++ rest).takeWhile (isDigitOf radix) = d := by
  rw [List.takeWhile_append_of_pos all]
  cases rest with
  | nil => simp
  | cons c rest => simp [stop c rfl]

theorem dropWhile_digits {radix : Nat} {d rest : Str} (all : ∀ c ∈ d, isDigitOf radix c = true)
    (stop : NoDigit radix rest) : (d ++ rest).dropWhile (isDigitOf radix) = rest := by
  rw [List.dropWhile_append_of_pos all]
  cases rest with
  | nil => rfl
  | cons c rest => simp [stop c rfl]

/-- A numeral is read back, whatever text that does not continue it follows. -/
theorem readNumber_toDigits {radix maxDigits max n : Nat} {allow : Bool} {rest : Str}
    (h1 : 1 < radix) (h16 : radix ≤ 16) (fits : n < radix ^ maxDigits) (positive : 0 < maxDigits)
    (le : n ≤ max) (stop : NoDigit radix rest) :
    readNumber radix maxDigits max allow (Nat.toDigits radix n ++ rest) = some (n, rest) := by
  have all := isDigitOf_of_mem_toDigits h1 h16 n
  have short := (Nat.length_toDigits_le_iff h1 positive).mpr fits
  have zero : (Nat.toDigits radix n).head? = some '0' → (Nat.toDigits radix n).length = 1 := by
    intro head
    by_cases hn : n = 0
    · simp [hn]
    · exact absurd head (head_toDigits_ne_zero h1 hn)
  simp only [readNumber, takeWhile_digits all stop, dropWhile_digits all stop,
    digitsValue_toDigits h1 h16]
  rw [if_neg, if_neg, if_neg (by omega)]
  · simp only [Bool.and_eq_true, beq_iff_eq, decide_eq_true_eq, not_and]
    intro head
    have := zero head.2
    omega
  · simp [Nat.toDigits_ne_nil]
    omega

theorem readOctet_decimal (n : UInt8) {rest : Str} (stop : NoDigit 10 rest) :
    readOctet (decimal n.toNat ++ rest) = some (n, rest) := by
  have := n.toNat_lt
  rw [readOctet, decimal, readNumber_toDigits (by omega) (by omega) (by omega) (by omega)
    (by omega) stop]
  simp

theorem readGroup_hex (g : UInt16) {rest : Str} (stop : NoDigit 16 rest) :
    readGroup (hex g.toNat ++ rest) = some (g, rest) := by
  have := g.toNat_lt
  rw [readGroup, hex, readNumber_toDigits (by omega) (by omega) (by omega) (by omega)
    (by omega) stop]
  simp

/-! ### The parser undoes the formatter -/

theorem readIpv4_display (x : Ipv4Addr) {rest : Str} (stop : NoDigit 10 rest) :
    readIpv4 (x.display ++ rest) = some (x, rest) := by
  have dot : ∀ t, NoDigit 10 ('.' :: t) := fun t => noDigit_cons (by decide)
  simp [readIpv4, Ipv4Addr.display, readOctet_decimal, dot, stop, readGivenChar]

theorem readNumber_none {radix maxDigits max : Nat} {allow : Bool} {s : Str}
    (stop : NoDigit radix s) :
    readNumber radix maxDigits max allow s = none := by
  have none : s.takeWhile (isDigitOf radix) = [] := takeWhile_digits (d := []) (by simp) stop
  simp [readNumber, none]

/-- What follows a first number must be a dot. -/
theorem readIpv4_eq_none {s : Str} (h : (s.dropWhile (isDigitOf 10)).head? ≠ some '.') :
    readIpv4 s = none := by
  cases octet : readOctet s with
  | none => simp [readIpv4, octet]
  | some parsed =>
      obtain ⟨n, rest⟩ := parsed
      have restEq : rest = s.dropWhile (isDigitOf 10) := by
        unfold readOctet readNumber at octet
        grind
      have noDot : readGivenChar '.' rest = none := by
        cases rest with
        | nil => rfl
        | cons c t =>
            have : c ≠ '.' := by
              rintro rfl
              simp [← restEq] at h
            simp [readGivenChar, this]
      simp [readIpv4, octet, noDot]

/-- A run of groups ends at the end of the text or at a `::`. -/
def GroupsEnd (s : Str) : Prop := s = [] ∨ ∃ t, s = ':' :: ':' :: t

theorem readGroup_none {s : Str} (stop : NoDigit 16 s) : readGroup s = none := by
  simp [readGroup, readNumber_none stop]

theorem readIpv4_none_of_colon (s : Str) : readIpv4 (':' :: s) = none := by
  refine readIpv4_eq_none ?_
  have : isDigitOf 10 ':' = false := by decide
  simp [this]

theorem noDigit_of_groupsEnd {radix : Nat} (h : isDigitOf radix ':' = false) {s : Str}
    (stop : GroupsEnd s) : NoDigit radix s := by
  rcases stop with rfl | ⟨t, rfl⟩
  · exact noDigit_nil _
  · exact noDigit_cons h

/-- At the end of a run no further group is read and nothing is consumed. -/
theorem readGroups_stop (n : Nat) (first : Bool) {s : Str} (stop : GroupsEnd s) :
    readGroups n first s = ([], false, s) := by
  cases n with
  | zero => rfl
  | succ n =>
      have colon : ∀ t, NoDigit 16 (':' :: t) := fun t => noDigit_cons (by decide)
      have empty : readIpv4 [] = none := by decide
      have group : readGroup [] = none := by decide
      rcases stop with rfl | ⟨t, rfl⟩ <;> cases first <;>
        simp [readGroups, readGivenChar, readIpv4_none_of_colon, readGroup_none,
          colon, empty, group]

/-- A group followed by anything but a dot is not the start of an IPv4 address. -/
theorem readIpv4_hex_none (g : UInt16) {rest : Str} (stop : NoDigit 10 rest)
    (noDot : rest.head? ≠ some '.') : readIpv4 (hex g.toNat ++ rest) = none := by
  have digits : ∀ c ∈ hex g.toNat, isDigitOf 16 c = true :=
    isDigitOf_of_mem_toDigits (by omega) (by omega) g.toNat
  have inner : ∀ l : Str, (∀ c ∈ l, isDigitOf 16 c = true) →
      ((l ++ rest).dropWhile (isDigitOf 10)).head? ≠ some '.' := by
    intro l hl
    induction l with
    | nil =>
        have all : rest.dropWhile (isDigitOf 10) = rest := dropWhile_digits (d := []) (by simp) stop
        rwa [List.nil_append, all]
    | cons c l ih =>
        rw [List.cons_append, List.dropWhile_cons]
        split
        · exact ih fun d hd => hl d (List.mem_cons_of_mem _ hd)
        · rw [List.head?_cons, Ne, Option.some.injEq]
          rintro rfl
          exact absurd (hl '.' List.mem_cons_self) (by decide)
  exact readIpv4_eq_none (inner _ digits)

theorem readIpv4_hex_colon (g : UInt16) (t : Str) : readIpv4 (hex g.toNat ++ ':' :: t) = none :=
  readIpv4_hex_none g (noDigit_cons (by decide)) (by simp)

theorem readGroup_hex_colon (g : UInt16) (t : Str) :
    readGroup (hex g.toNat ++ ':' :: t) = some (g, ':' :: t) :=
  readGroup_hex g (noDigit_cons (by decide))

/-- Written groups are read back one by one, up to the end of the run. -/
theorem readGroups_display {gs : List UInt16} {n : Nat} (first : Bool) {rest : Str} (ne : gs ≠ [])
    (fits : gs.length ≤ n) (stop : GroupsEnd rest) :
    readGroups n first ((if first then [] else [':']) ++ (displayGroups gs ++ rest)) =
      (gs, false, rest) := by
  induction gs generalizing n first with
  | nil => exact absurd rfl ne
  | cons g gs ih =>
      obtain ⟨m, rfl⟩ : ∃ m, n = m + 1 := ⟨n - 1, by simp at fits; omega⟩
      have separated : ∀ t : Str,
          (if first then some ((if first then [] else [':']) ++ t)
            else readGivenChar ':' ((if first then [] else [':']) ++ t)) = some t := by
        intro t
        cases first <;> simp [readGivenChar]
      cases gs with
      | nil =>
          have stop10 : NoDigit 10 rest := noDigit_of_groupsEnd (by decide) stop
          have noDot : rest.head? ≠ some '.' := by
            rcases stop with rfl | ⟨t, rfl⟩ <;> simp
          have group := readGroup_hex g (noDigit_of_groupsEnd (by decide) stop)
          simp [readGroups, separated, displayGroups, readIpv4_hex_none g stop10 noDot, group,
            readGroups_stop m false stop]
      | cons g' gs =>
          have tail := ih (n := m) false (by simp) (by simpa using fits)
          simp only [Bool.false_eq_true, if_false, List.cons_append, List.nil_append] at tail
          have none4 := readIpv4_hex_colon g (displayGroups (g' :: gs) ++ rest)
          have group := readGroup_hex_colon g (displayGroups (g' :: gs) ++ rest)
          simp [readGroups, separated, displayGroups, none4, group, tail]

/-- The span lies inside the segments and covers zeros only. -/
def ZeroRun (segs : List UInt16) (span : Span) : Prop :=
  span.start + span.len ≤ segs.length ∧
    ∀ i, span.start ≤ i → i < span.start + span.len → segs[i]? = some 0

theorem ZeroRun.append {segs : List UInt16} {span : Span} (h : ZeroRun segs span)
    (more : List UInt16) :
    ZeroRun (segs ++ more) span := by
  refine ⟨by simp; have := h.1; omega, fun i low high => ?_⟩
  rw [List.getElem?_append_left (by have := h.1; omega)]
  exact h.2 i low high

/-- The scan keeps the best run found so far and the run it is in. -/
theorem longestZeros_zeroRun (seen rest : List UInt16) (longest current : Span)
    (hl : ZeroRun seen longest) (hc : ZeroRun seen current)
    (adjacent : current.len = 0 ∨ current.start + current.len = seen.length) :
    ZeroRun (seen ++ rest) (longestZeros seen.length longest current rest) := by
  induction rest generalizing seen longest current with
  | nil => simpa [longestZeros] using hl
  | cons g rest ih =>
      have split : seen ++ g :: rest = (seen ++ [g]) ++ rest := by simp
      rw [split]
      simp only [longestZeros]
      by_cases zero : g = 0
      · subst zero
        set next : Span := ⟨if current.len = 0 then seen.length else current.start, current.len + 1⟩
        have hn : ZeroRun (seen ++ [0]) next := by
          refine ⟨?_, fun i low high => ?_⟩
          · simp only [next, List.length_append, List.length_singleton]
            split <;> omega
          · by_cases last : i = seen.length
            · simp [last]
            · simp only [next] at low high
              have inside : current.start ≤ i ∧ i < current.start + current.len := by
                split at low <;> split at high <;> omega
              exact (hc.append [0]).2 i inside.1 inside.2
        have adj : next.len = 0 ∨ next.start + next.len = (seen ++ [(0 : UInt16)]).length := by
          right
          simp only [next, List.length_append, List.length_singleton]
          split <;> omega
        have := ih (seen ++ [0]) (if longest.len < next.len then next else longest) next
          (by split; exacts [hn, hl.append _]) hn adj
        simpa [next] using this
      · have := ih (seen ++ [g]) longest ⟨0, 0⟩ (hl.append _) ⟨by simp, by simp⟩ (Or.inl rfl)
        simpa [zero] using this

/-- Cutting a run of zeros out of the segments and putting zeros back. -/
theorem zeroRun_restore {segs : List UInt16} {span : Span} (h : ZeroRun segs span) :
    segs.take span.start ++ List.replicate span.len 0 ++
      segs.drop (span.start + span.len) = segs := by
  have middle : (segs.drop span.start).take span.len = List.replicate span.len 0 := by
    apply List.ext_getElem?
    intro i
    rw [List.getElem?_take, List.getElem?_drop, List.getElem?_replicate]
    split
    · rename_i lt
      exact h.2 _ (by omega) (by omega)
    · rfl
  rw [← middle, ← List.drop_drop, List.append_assoc, List.take_append_drop, List.take_append_drop]

theorem readGroups_front (gs : List UInt16) {n : Nat} {rest : Str} (fits : gs.length ≤ n)
    (stop : GroupsEnd rest) :
    readGroups n true (displayGroups gs ++ rest) = (gs, false, rest) := by
  cases gs with
  | nil => simpa [displayGroups] using readGroups_stop n true stop
  | cons g gs => simpa using readGroups_display true (by simp) fits stop

/-- A text in two parts around `::`. -/
theorem readIpv6_parts {s t rest : Str} {head tail : List UInt16} {embedded : Bool}
    (front : readGroups 8 true s = (head, false, ':' :: ':' :: t)) (short : head.length ≠ 8)
    (back : readGroups (8 - (head.length + 1)) true t = (tail, embedded, rest)) :
    readIpv6 s =
      some (.ofSegments (head ++ List.replicate (8 - head.length - tail.length) 0 ++ tail),
        rest) := by
  simp only [readIpv6, front, short, if_false, readGivenChar, if_true, Bool.false_eq_true]
  simp only [Option.bind_eq_bind, Option.bind_some, if_true, back, Option.pure_def]

theorem readIpv6_compressed {head tail : List UInt16} (fits : head.length + tail.length ≤ 7) :
    readIpv6 (displayGroups head ++ ':' :: ':' :: displayGroups tail) =
      some (.ofSegments (head ++ List.replicate (8 - head.length - tail.length) 0 ++ tail),
        []) := by
  have front : readGroups 8 true (displayGroups head ++ ':' :: ':' :: displayGroups tail) =
      (head, false, ':' :: ':' :: displayGroups tail) :=
    readGroups_front head (by omega) (Or.inr ⟨_, rfl⟩)
  have back := readGroups_front tail (n := 8 - (head.length + 1)) (by omega) (Or.inl rfl)
  rw [List.append_nil] at back
  exact readIpv6_parts front (by omega) back

theorem Ipv6Addr.segments_of_mapped {x : Ipv6Addr} {m : Ipv4Addr} (h : x.toIpv4Mapped = some m) :
    x.segments = [0, 0, 0, 0, 0, 0xffff, fromBeBytes m.a m.b, fromBeBytes m.c m.d] := by
  unfold toIpv4Mapped at h
  split at h
  · rename_i g g' eq
    cases h
    simp [eq]
  · cases h

theorem readIpv6_mapped {x : Ipv6Addr} {m : Ipv4Addr} (h : x.toIpv4Mapped = some m) :
    readIpv6 ("::ffff:".toList ++ m.display) = some (x, []) := by
  have segs := x.segments_of_mapped h
  have front := readGroups_stop 8 true (s := "::ffff:".toList ++ m.display) (Or.inr ⟨_, rfl⟩)
  have dotted := readIpv4_display m (noDigit_nil _)
  rw [List.append_nil] at dotted
  have last : readGroups 6 false (':' :: m.display) =
      ([fromBeBytes m.a m.b, fromBeBytes m.c m.d], true, []) := by
    simp [readGroups, readGivenChar, dotted]
  have ffff : "ffff:".toList ++ m.display = hex (0xffff : UInt16).toNat ++ ':' :: m.display := rfl
  have back : readGroups 7 true ("ffff:".toList ++ m.display) =
      ([0xffff, fromBeBytes m.a m.b, fromBeBytes m.c m.d], true, []) := by
    rw [ffff, readGroups]
    simp only [if_true, Option.bind_some, readIpv4_hex_colon, ite_self, readGroup_hex_colon, last]
  have front : readGroups 8 true ("::ffff:".toList ++ m.display) =
      ([], false, ':' :: ':' :: ("ffff:".toList ++ m.display)) :=
    readGroups_stop 8 true (Or.inr ⟨_, rfl⟩)
  rw [readIpv6_parts front (by simp) back, ← x.ofSegments_segments, segs]
  rfl

/-- **The parser undoes the formatter.** -/
theorem IpAddr.parse_display (x : IpAddr) : parse x.display = some x := by
  cases x with
  | v4 x =>
      have read := readIpv4_display x (noDigit_nil _)
      rw [List.append_nil] at read
      simp [parse, display, read]
  | v6 x =>
      suffices readIpv4 x.display = none ∧ readIpv6 x.display = some (x, []) by
        simp [parse, display, this]
      unfold Ipv6Addr.display
      cases mapped : x.toIpv4Mapped with
      | some m => exact ⟨readIpv4_none_of_colon _, readIpv6_mapped mapped⟩
      | none =>
          have run := longestZeros_zeroRun [] x.segments ⟨0, 0⟩ ⟨0, 0⟩ ⟨by simp, by simp⟩
            ⟨by simp, by simp⟩ (Or.inl rfl)
          simp only [List.length_nil, List.nil_append] at run
          set zeros := longestZeros 0 ⟨0, 0⟩ ⟨0, 0⟩ x.segments
          have bound := run.1
          rw [x.length_segments] at bound
          dsimp only
          split
          · rename_i compressed
            refine ⟨?_, ?_⟩
            · match x.segments.take zeros.start with
              | [] => exact readIpv4_none_of_colon _
              | [g] => exact readIpv4_hex_colon g _
              | g :: g' :: gs =>
                  simp only [displayGroups, List.append_assoc, List.cons_append]
                  exact readIpv4_hex_colon g _
            · have lengths : (x.segments.take zeros.start).length = zeros.start ∧
                  (x.segments.drop (zeros.start + zeros.len)).length =
                      8 - (zeros.start + zeros.len) := by
                simp
                omega
              have middle : 8 - (x.segments.take zeros.start).length -
                  (x.segments.drop (zeros.start + zeros.len)).length = zeros.len := by omega
              rw [readIpv6_compressed (by omega), middle, zeroRun_restore run,
                Ipv6Addr.ofSegments_segments]
          · have whole := readGroups_front x.segments (n := 8) (by simp) (Or.inl rfl)
            rw [List.append_nil] at whole
            refine ⟨?_, by simp [readIpv6, whole]⟩
            match segs : x.segments with
            | g :: g' :: gs => exact readIpv4_hex_colon g _
            | [g] => exact absurd (congrArg List.length segs) (by simp)
            | [] => exact absurd (congrArg List.length segs) (by simp)

/-! ### Case -/

theorem isDigitOf_toLower (radix : Nat) (c : Char) :
    isDigitOf radix c.toLower = isDigitOf radix c := by
  simp [isDigitOf, toDigit_toLower]

theorem digitsValue_toAsciiLowercase (radix : Nat) (ds : Str) :
    digitsValue radix (toAsciiLowercase ds) = digitsValue radix ds := by
  simp [digitsValue, toAsciiLowercase, List.foldl_map, toDigit_toLower]

theorem readNumber_toAsciiLowercase (radix maxDigits max : Nat) (allow : Bool) (s : Str) :
    readNumber radix maxDigits max allow (toAsciiLowercase s) =
      (readNumber radix maxDigits max allow s).map fun (n, rest) => (n, toAsciiLowercase rest) := by
  have same : (isDigitOf radix ∘ Char.toLower) = isDigitOf radix :=
    funext fun c => isDigitOf_toLower radix c
  have taken : (toAsciiLowercase s).takeWhile (isDigitOf radix) =
      toAsciiLowercase (s.takeWhile (isDigitOf radix)) := by
    rw [toAsciiLowercase, List.takeWhile_map, same, toAsciiLowercase]
  have dropped : (toAsciiLowercase s).dropWhile (isDigitOf radix) =
      toAsciiLowercase (s.dropWhile (isDigitOf radix)) := by
    rw [toAsciiLowercase, List.dropWhile_map, same, toAsciiLowercase]
  have zero : ∀ ds : Str, ((toAsciiLowercase ds).head? == some '0') = (ds.head? == some '0') := by
    intro ds
    cases ds with
    | nil => rfl
    | cons c ds =>
        rw [Bool.eq_iff_iff]
        simp [toAsciiLowercase, toLower_eq_iff (d := '0') (Or.inl (by decide))]
  have empty : ∀ ds : Str, (toAsciiLowercase ds).isEmpty = ds.isEmpty := by
    intro ds
    cases ds <;> rfl
  simp only [readNumber, taken, dropped, digitsValue_toAsciiLowercase,
    toAsciiLowercase_length, zero,
    empty]
  split_ifs <;> rfl

theorem readGivenChar_toAsciiLowercase {c : Char} (h : c.toNat < 65) (s : Str) :
    readGivenChar c (toAsciiLowercase s) = (readGivenChar c s).map toAsciiLowercase := by
  cases s with
  | nil => rfl
  | cons x s =>
      simp only [toAsciiLowercase, List.map_cons, readGivenChar, toLower_eq_iff (Or.inl h)]
      split <;> rfl

theorem readOctet_toAsciiLowercase (s : Str) :
    readOctet (toAsciiLowercase s) = (readOctet s).map fun (n, rest) =>
      (n, toAsciiLowercase rest) := by
  simp only [readOctet, readNumber_toAsciiLowercase, Option.map_map]
  rfl

theorem readGroup_toAsciiLowercase (s : Str) :
    readGroup (toAsciiLowercase s) = (readGroup s).map fun (n, rest) =>
      (n, toAsciiLowercase rest) := by
  simp only [readGroup, readNumber_toAsciiLowercase, Option.map_map]
  rfl

theorem readIpv4_toAsciiLowercase (s : Str) :
    readIpv4 (toAsciiLowercase s) = (readIpv4 s).map fun (x, rest) =>
      (x, toAsciiLowercase rest) := by
  have dot := fun t => readGivenChar_toAsciiLowercase (c := '.') (by decide) t
  simp only [readIpv4, readOctet_toAsciiLowercase, Option.bind_eq_bind,
    Option.bind_map, Option.map_bind,
    Function.comp_def, dot]
  rfl

theorem readGroups_toAsciiLowercase (n : Nat) (first : Bool) (s : Str) :
    readGroups n first (toAsciiLowercase s) =
      ((readGroups n first s).1, (readGroups n first s).2.1,
        toAsciiLowercase (readGroups n first s).2.2) := by
  induction n generalizing first s with
  | zero => rfl
  | succ n ih =>
      have separated :
        (if first then some (toAsciiLowercase s) else readGivenChar ':' (toAsciiLowercase s)) =
          (if first then some s else readGivenChar ':' s).map toAsciiLowercase := by
        cases first
        · exact readGivenChar_toAsciiLowercase (by decide) s
        · rfl
      simp only [readGroups, separated]
      generalize (if first then some s else readGivenChar ':' s) = text
      have dotted : (if 0 < n then (text.map toAsciiLowercase).bind readIpv4 else none) =
          (if 0 < n then text.bind readIpv4 else none).map fun (x, rest) =>
              (x, toAsciiLowercase rest) := by
        split
        · cases text with
          | none => rfl
          | some t => exact readIpv4_toAsciiLowercase t
        · rfl
      have group : (text.map toAsciiLowercase).bind readGroup =
          (text.bind readGroup).map fun (g, rest) => (g, toAsciiLowercase rest) := by
        cases text with
        | none => rfl
        | some t => exact readGroup_toAsciiLowercase t
      rw [dotted, group]
      cases (if 0 < n then text.bind readIpv4 else none) with
      | some parsed => rfl
      | none =>
          cases text.bind readGroup with
          | none => rfl
          | some parsed => simp [ih]

theorem readIpv6_toAsciiLowercase (s : Str) :
    readIpv6 (toAsciiLowercase s) = (readIpv6 s).map fun (x, rest) =>
      (x, toAsciiLowercase rest) := by
  have colon := fun t => readGivenChar_toAsciiLowercase (c := ':') (by decide) t
  simp only [readIpv6, readGroups_toAsciiLowercase, colon]
  split
  · rfl
  · split
    · rfl
    · cases readGivenChar ':' (readGroups 8 true s).2.2 with
      | none => rfl
      | some t =>
          cases second : readGivenChar ':' t with
          | none => simp [colon, second]
          | some u => simp [colon, second, readGroups_toAsciiLowercase]

/-- The parser does not look at the case of letters. -/
theorem IpAddr.parse_toAsciiLowercase (s : Str) : parse (toAsciiLowercase s) = parse s := by
  have empty : ∀ ds : Str, (toAsciiLowercase ds).isEmpty = ds.isEmpty := by
    intro ds
    cases ds <;> rfl
  simp only [parse, readIpv4_toAsciiLowercase, readIpv6_toAsciiLowercase]
  cases readIpv4 s with
  | some parsed => simp [empty]
  | none =>
      cases readIpv6 s with
      | some parsed => simp [empty]
      | none => rfl

end Commeatus.Lib
