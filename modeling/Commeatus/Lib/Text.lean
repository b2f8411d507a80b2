import Mathlib.Algebra.Ring.Nat
import Mathlib.Data.List.DropRight

/-!
Text and bytes.

A string slice is the list of its Unicode scalar values and a byte buffer is a
list of octets; `utf8` and `fromUtf8` are the two directions between them and
are built on the encoder and decoder of the core library, so `fromUtf8` rejects
overlong forms, surrogates and truncated sequences. The trimming, splitting and
number-reading operations follow the documented behaviour of the string library
they model: trimming removes every repetition of the character, lowercasing
touches only ASCII letters, and white space is the Unicode property
`White_Space`.
-/

namespace Commeatus.Lib

abbrev Bytes := List UInt8

/-- A string slice, as its Unicode scalar values. -/
abbrev Str := List Char

/-! ### UTF-8 -/

def utf8 (s : Str) : Bytes := s.flatMap String.utf8EncodeChar

def fromUtf8 (b : Bytes) : Option Str := b.toByteArray.utf8Decode?.map Array.toList

/-- The length of a string slice in bytes. -/
def byteLen (s : Str) : Nat := (utf8 s).length

@[simp] theorem utf8_nil : utf8 [] = [] := rfl

@[simp] theorem utf8_cons (c : Char) (s : Str) :
    utf8 (c :: s) = String.utf8EncodeChar c ++ utf8 s := by
  simp [utf8]

@[simp] theorem utf8_append (s t : Str) : utf8 (s ++ t) = utf8 s ++ utf8 t := by
  simp [utf8]

@[simp] theorem fromUtf8_utf8 (s : Str) : fromUtf8 (utf8 s) = some s := by
  have decoded : (utf8 s).toByteArray.utf8Decode? = some s.toArray :=
    List.utf8Decode?_utf8Encode
  simp [fromUtf8, decoded]

/-- Decoding is exact: the decoded text encodes back to the very bytes read. -/
theorem utf8_inj {s t : Str} (same : utf8 s = utf8 t) : s = t := by
  have both := congrArg fromUtf8 same
  rwa [fromUtf8_utf8, fromUtf8_utf8, Option.some.injEq] at both

theorem fromUtf8_eq_some_iff {b : Bytes} {s : Str} : fromUtf8 b = some s ↔ utf8 s = b := by
  constructor
  · intro decoded
    obtain ⟨chars, found, rfl⟩ := Option.map_eq_some_iff.mp decoded
    have encoded := ByteArray.utf8Encode_get_utf8Decode? (b := b.toByteArray) (h := by simp [found])
    simp only [found, Option.get_some] at encoded
    have := congrArg (fun a => a.data.toList) encoded
    simpa [List.utf8Encode, utf8] using this
  · rintro rfl
    exact fromUtf8_utf8 s

@[simp] theorem byteLen_nil : byteLen [] = 0 := rfl

@[simp] theorem byteLen_append (s t : Str) : byteLen (s ++ t) = byteLen s + byteLen t := by
  simp [byteLen]

@[simp] theorem byteLen_cons (c : Char) (s : Str) : byteLen (c :: s) = c.utf8Size + byteLen s := by
  simp [byteLen]

theorem byteLen_eq_zero {s : Str} : byteLen s = 0 ↔ s = [] := by
  cases s with
  | nil => simp
  | cons c s =>
      have := c.utf8Size_pos
      simp
      omega

theorem byteLen_le_of_initial {s t : Str} (h : s <+: t) : byteLen s ≤ byteLen t := by
  obtain ⟨u, rfl⟩ := h
  simp

/-- An ASCII octet of an encoding is one of the encoded characters. -/
theorem mem_of_mem_utf8 {s : Str} {b : UInt8} (mem : b ∈ utf8 s) (ascii : b.toNat < 128) :
    ∃ c ∈ s, c.toNat = b.toNat := by
  obtain ⟨c, hc, hb⟩ := List.mem_flatMap.mp mem
  refine ⟨c, hc, ?_⟩
  change c.val.toNat = b.toNat
  simp only [String.utf8EncodeChar] at hb
  -- every octet of a multi-byte form is at least 0x80, so only the first branch can hold `b`
  split_ifs at hb
  all_goals
    simp only [List.mem_cons, List.not_mem_nil, or_false] at hb
    rcases hb with rfl | rfl | rfl | rfl <;>
      simp only [UInt8.toNat_ofNat'] at ascii ⊢ <;> omega

theorem utf8_ascii {s : Str} (h : ∀ c ∈ s, c.toNat < 128) :
    utf8 s = s.map fun c => UInt8.ofNat c.toNat := by
  induction s with
  | nil => rfl
  | cons c s ih =>
      have small : c.val.toNat ≤ 127 := Nat.le_of_lt_succ (h c List.mem_cons_self)
      have head : String.utf8EncodeChar c = [UInt8.ofNat c.val.toNat] := by
        simp only [String.utf8EncodeChar, if_pos small]
      rw [utf8_cons, head, ih fun d hd => h d (List.mem_cons_of_mem _ hd)]
      rfl

theorem byteLen_ascii {s : Str} (h : ∀ c ∈ s, c.toNat < 128) : byteLen s = s.length := by
  simp [byteLen, utf8_ascii h]

def isAscii (s : Str) : Bool := s.all fun c => decide (c.toNat < 128)

theorem isAscii_iff {s : Str} : isAscii s = true ↔ ∀ c ∈ s, c.toNat < 128 := by
  simp [isAscii]

/-- A text whose encoding ends with that of an ASCII text ends with that text: no other character
has an ASCII octet in its encoding. -/
theorem append_of_utf8_append {s t : Str} {front : Bytes} (ascii : ∀ c ∈ t, c.toNat < 128)
    (ends : utf8 s = front ++ utf8 t) : ∃ u, s = u ++ t ∧ utf8 u = front := by
  induction t using List.reverseRecOn generalizing s with
  | nil => exact ⟨s, (List.append_nil s).symm, by simpa using ends⟩
  | append_singleton t c ih =>
      have small : c.toNat < 128 := ascii c (by simp)
      have last : utf8 [c] = [UInt8.ofNat c.toNat] := utf8_ascii (by simpa using small)
      rw [utf8_append, last, ← List.append_assoc] at ends
      cases s using List.reverseRecOn with
      | nil => simp at ends
      | append_singleton s c' =>
          have octet : UInt8.ofNat c.toNat ∈ utf8 [c'] := by
            have nonempty : utf8 [c'] ≠ [] := by
              intro none
              have positive := c'.utf8Size_pos
              have size : byteLen [c'] = 0 := congrArg List.length none
              simp at size
              omega
            rw [utf8_append] at ends
            have same := congrArg List.getLast? ends
            rw [List.getLast?_append_of_ne_nil _ nonempty, List.getLast?_concat] at same
            exact List.mem_of_getLast? same
          have octetSmall : (UInt8.ofNat c.toNat).toNat = c.toNat := Nat.mod_eq_of_lt (by omega)
          obtain ⟨d, one, value⟩ := mem_of_mem_utf8 octet (by omega)
          rw [List.mem_singleton] at one
          subst one
          have same : d = c := Char.toNat_inj.mp (by omega)
          subst same
          rw [utf8_append, last] at ends
          obtain ⟨u, rfl, front⟩ :=
            ih (fun x member => ascii x (by simp [member])) (List.append_inj' ends rfl).1
          exact ⟨u, by simp, front⟩

/-! ### Trimming and case -/

/-- `trim_end_matches`: remove every trailing repetition of `c`. -/
def trimEndMatches (c : Char) (s : Str) : Str := s.rdropWhile (· == c)

/-- `trim_matches`: remove every leading and trailing repetition of `c`. -/
def trimMatches (c : Char) (s : Str) : Str := trimEndMatches c (s.dropWhile (· == c))

def toAsciiLowercase (s : Str) : Str := s.map Char.toLower

def eqIgnoreAsciiCase (s t : Str) : Bool := toAsciiLowercase s == toAsciiLowercase t

theorem trimEndMatches_initial (c : Char) (s : Str) : trimEndMatches c s <+: s :=
  List.rdropWhile_prefix _ _

theorem trimEndMatches_idem (c : Char) (s : Str) :
    trimEndMatches c (trimEndMatches c s) = trimEndMatches c s :=
  List.rdropWhile_idempotent _ _

theorem trimEndMatches_eq_self {c : Char} {s : Str} (h : s.getLast? ≠ some c) :
    trimEndMatches c s = s := by
  refine List.rdropWhile_eq_self_iff.mpr fun ne last => h ?_
  rw [List.getLast?_eq_some_getLast ne]
  simpa using last

theorem trimEndMatches_getLast? {c : Char} {s : Str} : (trimEndMatches c s).getLast? ≠ some c := by
  intro last
  have ne : s.rdropWhile (· == c) ≠ [] := by
    intro nil
    simp [trimEndMatches, nil] at last
  have := List.rdropWhile_last_not (p := (· == c)) (l := s) ne
  rw [trimEndMatches, List.getLast?_eq_some_getLast ne] at last
  exact this (by simpa using last)

theorem isUpper_iff {c : Char} : c.isUpper = true ↔ 65 ≤ c.toNat ∧ c.toNat ≤ 90 :=
  decide_eq_true_iff.trans Iff.rfl

theorem isLower_iff {c : Char} : c.isLower = true ↔ 97 ≤ c.toNat ∧ c.toNat ≤ 122 :=
  (Bool.and_eq_true_iff.trans (and_congr decide_eq_true_iff decide_eq_true_iff)).trans Iff.rfl

theorem toLower_of_not_isUpper {c : Char} (h : ¬ c.isUpper = true) : c.toLower = c :=
  dif_neg fun upper => h (decide_eq_true upper)

theorem toNat_toLower {c : Char} (upper : c.isUpper = true) : c.toLower.toNat = c.toNat + 32 := by
  have lower : c.toLower.toNat = (c.toNat + 32) % 2 ^ 32 :=
    congrArg Char.toNat (dif_pos (of_decide_eq_true upper))
  have small := isUpper_iff.mp upper
  omega

/-- Lowercasing either leaves a character alone or lands in `a`..`z`. -/
theorem toLower_cases (c : Char) :
    c.toLower = c ∨ (97 ≤ c.toLower.toNat ∧ c.toLower.toNat ≤ 122 ∧
      c.toNat + 32 = c.toLower.toNat) := by
  by_cases upper : c.isUpper = true
  · have range := isUpper_iff.mp upper
    have lower := toNat_toLower upper
    omega
  · exact .inl (toLower_of_not_isUpper upper)

theorem toLower_toLower (c : Char) : c.toLower.toLower = c.toLower := by
  rcases toLower_cases c with same | ⟨low, -, -⟩
  · rw [same, same]
  · rcases toLower_cases c.toLower with same | ⟨-, high, shifted⟩
    · exact same
    · omega

/-- A character below `A` is the lowercase form of itself only. -/
theorem toLower_eq_iff {c d : Char}
    (h : d.toNat < 65 ∨ 122 < d.toNat ∨ (90 < d.toNat ∧ d.toNat < 97)) :
    c.toLower = d ↔ c = d := by
  constructor
  · rintro rfl
    rcases toLower_cases c with same | ⟨low, high, -⟩
    · exact same.symm
    · omega
  · rintro rfl
    rcases toLower_cases c with same | ⟨low, high, shifted⟩
    · exact same
    · omega

theorem utf8Size_toLower (c : Char) : c.toLower.utf8Size = c.utf8Size := by
  rcases toLower_cases c with same | ⟨low, high, shifted⟩
  · rw [same]
  · have small : ∀ d : Char, d.toNat ≤ 122 → d.utf8Size = 1 := fun d hd =>
      Char.utf8Size_eq_one_iff.mpr (by
        rw [UInt32.le_iff_toNat_le]
        exact Nat.le_trans hd (by decide))
    rw [small _ high, small c (by omega)]

@[simp] theorem toAsciiLowercase_idem (s : Str) :
    toAsciiLowercase (toAsciiLowercase s) = toAsciiLowercase s := by
  unfold toAsciiLowercase
  rw [List.map_map]
  exact List.map_congr_left fun c _ => toLower_toLower c

@[simp] theorem toAsciiLowercase_length (s : Str) : (toAsciiLowercase s).length = s.length := by
  simp [toAsciiLowercase]

@[simp] theorem toAsciiLowercase_eq_nil {s : Str} : toAsciiLowercase s = [] ↔ s = [] := by
  simp [toAsciiLowercase]

@[simp] theorem isAscii_toAsciiLowercase (s : Str) : isAscii (toAsciiLowercase s) = isAscii s := by
  have same : ∀ c : Char, c.toLower.toNat < 128 ↔ c.toNat < 128 := by
    intro c
    rcases toLower_cases c with same | ⟨low, high, shifted⟩
    · rw [same]
    · omega
  simp [isAscii, toAsciiLowercase, List.all_map, Function.comp_def, same]

theorem toAsciiLowercase_append (s t : Str) :
    toAsciiLowercase (s ++ t) = toAsciiLowercase s ++ toAsciiLowercase t := by
  simp [toAsciiLowercase]

@[simp] theorem byteLen_toAsciiLowercase (s : Str) : byteLen (toAsciiLowercase s) = byteLen s := by
  induction s with
  | nil => rfl
  | cons c s ih =>
      simp only [toAsciiLowercase, List.map_cons, byteLen_cons, utf8Size_toLower] at ih ⊢
      rw [ih]

/-- Trimming a caseless character commutes with lowercasing. -/
theorem toAsciiLowercase_trimEndMatches {d : Char} (h : d.toNat < 65) (s : Str) :
    toAsciiLowercase (trimEndMatches d s) = trimEndMatches d (toAsciiLowercase s) := by
  induction s using List.reverseRecOn with
  | nil => rfl
  | append_singleton s c ih =>
      have same : (c.toLower == d) = (c == d) := by
        rw [Bool.eq_iff_iff]
        simp [toLower_eq_iff (Or.inl h)]
      simp only [toAsciiLowercase, trimEndMatches, List.map_append, List.map_cons, List.map_nil,
        List.rdropWhile_concat, same] at ih ⊢
      split <;> simp_all

theorem trimMatches_head? {c : Char} {s : Str} : (trimMatches c s).head? ≠ some c := by
  intro first
  obtain ⟨rest, split⟩ := trimEndMatches_initial c (s.dropWhile (· == c))
  have head : (s.dropWhile (· == c)).head? = some c := by
    rw [← split, List.head?_append]
    simp only [trimMatches] at first
    simp [first]
  have := List.head?_dropWhile_not (· == c) s
  rw [head] at this
  simp at this

theorem trimMatches_eq_self {c : Char} {s : Str} (first : s.head? ≠ some c)
    (last : s.getLast? ≠ some c) :
    trimMatches c s = s := by
  have undropped : s.dropWhile (· == c) = s := by
    cases s with
    | nil => rfl
    | cons d rest =>
        have : (d == c) = false := by simpa using first
        simp [this]
  rw [trimMatches, undropped, trimEndMatches_eq_self last]

theorem trimMatches_getLast? {c : Char} {s : Str} : (trimMatches c s).getLast? ≠ some c :=
  trimEndMatches_getLast?

theorem mem_of_mem_trimMatches {c d : Char} {s : Str} (mem : d ∈ trimMatches c s) : d ∈ s :=
  (List.dropWhile_suffix _).subset ((trimEndMatches_initial c _).subset mem)

/-- Trimming removes nothing but the character. -/
theorem mem_trimMatches {c d : Char} {s : Str} (mem : d ∈ s) (other : d ≠ c) :
    d ∈ trimMatches c s := by
  have keeps : ∀ {t : Str}, d ∈ t → d ∈ t.dropWhile (· == c) := by
    intro t mem
    rw [← @List.takeWhile_append_dropWhile _ (· == c) t, List.mem_append] at mem
    rcases mem with dropped | kept
    · exact absurd (by simpa using List.mem_takeWhile_imp dropped) other
    · exact kept
  unfold trimMatches trimEndMatches List.rdropWhile
  exact List.mem_reverse.mpr (keeps (List.mem_reverse.mpr (keeps mem)))

/-- The ends of a lowercased text, at a caseless character. -/
theorem toAsciiLowercase_ends {d : Char} (h : d.toNat < 65) (s : Str) :
    ((toAsciiLowercase s).head? = some d ↔ s.head? = some d) ∧
      ((toAsciiLowercase s).getLast? = some d ↔ s.getLast? = some d) := by
  simp [toAsciiLowercase, toLower_eq_iff (Or.inl h)]

/-- Lowercasing leaves nothing to trim. -/
theorem trimMatches_lowercase {d : Char} (h : d.toNat < 65) (s : Str) :
    trimMatches d (toAsciiLowercase (trimMatches d s)) = toAsciiLowercase (trimMatches d s) := by
  obtain ⟨head, last⟩ := toAsciiLowercase_ends h (trimMatches d s)
  exact trimMatches_eq_self (mt head.mp trimMatches_head?) (mt last.mp trimMatches_getLast?)

/-- A name that was trimmed and lowercased is left alone by doing it again. -/
theorem lowercase_trimMatches_idem {d : Char} (h : d.toNat < 65) (s : Str) :
    toAsciiLowercase (trimMatches d (toAsciiLowercase (trimMatches d s))) =
      toAsciiLowercase (trimMatches d s) := by
  rw [trimMatches_lowercase h, toAsciiLowercase_idem]

/-! ### Joining -/

/-- Words that are joined by a character that none of them has: it is not at the ends of the
whole. -/
theorem intercalate_ends {c : Char} {words : List Str} (some_word : words ≠ [])
    (nonempty : ∀ word ∈ words, word ≠ [])
    (free : ∀ word ∈ words, c ∉ word) :
    [c].intercalate words ≠ [] ∧ ([c].intercalate words).head? ≠ some c ∧
    ([c].intercalate words).getLast? ≠ some c := by
  induction words with
  | nil => exact absurd rfl some_word
  | cons word words ih =>
      have first := nonempty word List.mem_cons_self
      have clean := free word List.mem_cons_self
      have head : word.head? ≠ some c := fun has => clean (List.mem_of_head? has)
      by_cases last : words = []
      · subst last
        rw [List.intercalate_singleton]
        exact ⟨first, head, fun has => clean (List.mem_of_getLast? has)⟩
      · obtain ⟨joined, -, tail⟩ :=
          ih last (fun w later => nonempty w (List.mem_cons_of_mem _ later))
          (fun w later => free w (List.mem_cons_of_mem _ later))
        rw [List.intercalate_cons_of_ne_nil last, List.head?_append_of_ne_nil _ (by simp),
          List.head?_append_of_ne_nil _ first,
          List.getLast?_append_of_ne_nil _ joined]
        exact ⟨by simp, head, tail⟩

theorem toAsciiLowercase_intercalate {c : Char} (caseless : c.toLower = c) (words : List Str) :
    toAsciiLowercase ([c].intercalate words) = [c].intercalate (words.map toAsciiLowercase) := by
  induction words with
  | nil => rfl
  | cons word words ih =>
      by_cases last : words = []
      · subst last
        simp
      · have last' : words.map toAsciiLowercase ≠ [] := by simpa using last
        rw [List.map_cons, List.intercalate_cons_of_ne_nil last,
          List.intercalate_cons_of_ne_nil last',
          toAsciiLowercase_append, toAsciiLowercase_append, ih]
        simp [toAsciiLowercase, caseless]

/-- What is joined has the characters of the words and the separator. -/
theorem mem_intercalate {c d : Char} {words : List Str} (mem : d ∈ [c].intercalate words) :
    d = c ∨ ∃ word ∈ words, d ∈ word := by
  induction words with
  | nil => cases mem
  | cons word words ih =>
      by_cases last : words = []
      · subst last
        rw [List.intercalate_singleton] at mem
        exact .inr ⟨word, List.mem_cons_self, mem⟩
      · rw [List.intercalate_cons_of_ne_nil last, List.mem_append, List.mem_append,
          List.mem_singleton] at mem
        rcases mem with (inFirst | rfl) | later
        · exact .inr ⟨word, List.mem_cons_self, inFirst⟩
        · exact .inl rfl
        · rcases ih later with rfl | ⟨word', listed, inWord⟩
          · exact .inl rfl
          · exact .inr ⟨word', List.mem_cons_of_mem _ listed, inWord⟩

theorem not_mem_of_mem_splitOn {c : Char} {s part : Str}
    (member : part ∈ s.splitOn c) : c ∉ part := by
  induction s generalizing part with
  | nil =>
      rw [List.splitOn_nil, List.mem_singleton] at member
      rw [member]
      exact List.not_mem_nil
  | cons d s ih =>
      rw [List.splitOn_cons_eq_if_modifyHead] at member
      split at member
      · rcases List.mem_cons.mp member with rfl | later
        · exact List.not_mem_nil
        · exact ih later
      · rename_i other
        obtain ⟨first, rest, parts⟩ := List.exists_cons_of_ne_nil (List.splitOn_ne_nil c s)
        rw [parts, List.modifyHead_cons, List.mem_cons] at member
        rw [parts] at ih
        rcases member with rfl | later
        · intro has
          rcases List.mem_cons.mp has with rfl | deeper
          · simp at other
          · exact ih List.mem_cons_self deeper
        · exact ih (List.mem_cons_of_mem _ later)

theorem mem_of_mem_splitOn {c d : Char} {s part : Str} (member : part ∈ s.splitOn c)
    (mem : d ∈ part) : d ∈ s := by
  induction s generalizing part with
  | nil =>
      rw [List.splitOn_nil, List.mem_singleton] at member
      rwa [member] at mem
  | cons e s ih =>
      rw [List.splitOn_cons_eq_if_modifyHead] at member
      split at member
      · rcases List.mem_cons.mp member with rfl | later
        · cases mem
        · exact List.mem_cons_of_mem _ (ih later mem)
      · obtain ⟨first, rest, parts⟩ := List.exists_cons_of_ne_nil (List.splitOn_ne_nil c s)
        rw [parts, List.modifyHead_cons, List.mem_cons] at member
        rw [parts] at ih
        rcases member with rfl | later
        · rcases List.mem_cons.mp mem with rfl | deeper
          · exact List.mem_cons_self
          · exact List.mem_cons_of_mem _ (ih List.mem_cons_self deeper)
        · exact List.mem_cons_of_mem _ (ih (List.mem_cons_of_mem _ later) mem)

theorem exists_mem_splitOn {c d : Char} {s : Str} (mem : d ∈ s) (other : d ≠ c) :
    ∃ part ∈ s.splitOn c, d ∈ part := by
  rw [← @List.intercalate_splitOn _ s _ _ c] at mem
  rcases mem_intercalate mem with same | found
  · exact absurd same other
  · exact found

/-- The separators count as well. -/
theorem byteLen_splitOn {c : Char} (ascii : c.utf8Size = 1) (s : Str) :
    byteLen s + 1 = ((s.splitOn c).map fun piece => byteLen piece + 1).sum := by
  induction s with
  | nil => rfl
  | cons d s ih =>
      rw [List.splitOn_cons_eq_if_modifyHead]
      split
      · rename_i separates
        have is : d = c := by simpa using separates
        rw [List.map_cons, List.sum_cons, ← ih, byteLen_cons, is, ascii, byteLen_nil]
        omega
      · obtain ⟨first, rest, parts⟩ := List.exists_cons_of_ne_nil (List.splitOn_ne_nil c s)
        rw [parts, List.map_cons, List.sum_cons] at ih
        rw [parts, List.modifyHead_cons, List.map_cons, List.sum_cons, byteLen_cons, byteLen_cons]
        omega

theorem splitOn_inj {c : Char} {s t : Str} : s.splitOn c = t.splitOn c ↔ s = t := by
  constructor
  · intro same
    rw [← @List.intercalate_splitOn _ s _ _ c, same, List.intercalate_splitOn]
  · rintro rfl
    rfl

/-! ### Splitting -/

/-- `lines`: a line feed ends a line, with the carriage return before it; a last line that none ends
is kept as it is, unless it is empty. -/
def lines (s : Str) : List Str :=
  let pieces := s.splitOn '\n'
  pieces.dropLast.map (fun line => if line.getLast? = some '\r' then line.dropLast else line) ++
    (pieces.getLast?.filter fun line => !line.isEmpty).toList

/-- The text between line feeds may be read in place of the lines, where empty lines and carriage
returns at the end of a line do not count. -/
theorem foldr_lines {β : Type} {f : Str → β → β} (bare : ∀ line, f (line ++ ['\r']) = f line)
    (empty : ∀ b, f [] b = b) (text : Str)
    (b : β) : (lines text).foldr f b = (text.splitOn '\n').foldr f b := by
  have unended : ∀ line :
      Str, f (if line.getLast? = some '\r' then line.dropLast else line) = f line := by
    intro line
    split
    · rename_i ended
      have whole := List.dropLast_append_getLast? _ ended
      rw [← bare, whole]
    · rfl
  obtain ⟨front, last, pieces⟩ : ∃ front last, text.splitOn '\n' = front ++ [last] :=
    ⟨_, _, (List.dropLast_append_getLast (List.splitOn_ne_nil '\n' text)).symm⟩
  have ends : (Option.filter (fun line : Str => !line.isEmpty) (some last)).toList.foldr f b =
      [last].foldr f b := by
    cases last with
    | nil => exact (empty b).symm
    | cons c last => rfl
  unfold lines
  rw [pieces]
  dsimp only
  rw [List.dropLast_concat, List.getLast?_concat, List.foldr_append, List.foldr_append,
    List.foldr_map, ends]
  simp only [unended]

/-- `strip_prefix`. -/
def stripFront (front s : Str) : Option Str := if front.isPrefixOf s then
    some (s.drop front.length) else none

/-- `strip_suffix` with a character. -/
def stripBack (c : Char) (s : Str) : Option Str := if s.getLast? = some c then
    some s.dropLast else none

theorem stripFront_eq_some_iff {front s t : Str} :
    stripFront front s = some t ↔ s = front ++ t := by
  unfold stripFront
  constructor
  · intro found
    split at found
    · rename_i begins
      obtain ⟨rest, rfl⟩ := List.isPrefixOf_iff_prefix.mp begins
      cases found
      rw [List.drop_left]
    · cases found
  · rintro rfl
    rw [if_pos (List.isPrefixOf_iff_prefix.mpr (List.prefix_append front t)), List.drop_left]

theorem stripBack_eq_some_iff {c : Char} {s t : Str} : stripBack c s = some t ↔ s = t ++ [c] := by
  unfold stripBack
  constructor
  · intro found
    split at found
    · rename_i ends
      cases found
      exact (List.dropLast_append_getLast? _ ends).symm
    · cases found
  · rintro rfl
    rw [List.getLast?_concat, if_pos rfl, List.dropLast_concat]

/-- `split_once`: the text before and after the first `c`. -/
def splitOnce (c : Char) (s : Str) : Option (Str × Str) :=
  match s.dropWhile (· != c) with
  | [] => none
  | _ :: rest => some (s.takeWhile (· != c), rest)

/-- `rsplit_once`: the text before and after the last `c`. -/
def rsplitOnce (c : Char) (s : Str) : Option (Str × Str) :=
  (splitOnce c s.reverse).map fun parts => (parts.2.reverse, parts.1.reverse)

theorem splitOnce_append {c : Char} {s : Str} (h : c ∉ s) (t : Str) :
    splitOnce c (s ++ c :: t) = some (s, t) := by
  have all : ∀ x ∈ s, (x != c) = true := by
    intro x hx
    simp only [bne_iff_ne, ne_eq]
    rintro rfl
    exact h hx
  simp [splitOnce, List.dropWhile_append_of_pos all, List.takeWhile_append_of_pos all]

theorem splitOnce_eq_some {c : Char} {s a b : Str} (h : splitOnce c s = some (a, b)) :
    s = a ++ c :: b ∧ c ∉ a := by
  unfold splitOnce at h
  split at h
  · cases h
  · rename_i x rest hdrop
    have hx : x = c := by
      have := List.head?_dropWhile_not (· != c) s
      simpa [hdrop] using this
    cases h
    refine ⟨?_, fun mem => ?_⟩
    · rw [← hx] at hdrop ⊢
      rw [← hdrop, List.takeWhile_append_dropWhile]
    · simpa using List.mem_takeWhile_imp mem

theorem rsplitOnce_append {c : Char} {t : Str} (h : c ∉ t) (s : Str) :
    rsplitOnce c (s ++ c :: t) = some (s, t) := by
  have reversed : (s ++ c :: t).reverse = t.reverse ++ c :: s.reverse := by simp
  rw [rsplitOnce, reversed, splitOnce_append (by simpa using h)]
  simp

theorem rsplitOnce_eq_some {c : Char} {s a b : Str} (h : rsplitOnce c s = some (a, b)) :
    s = a ++ c :: b ∧ c ∉ b := by
  obtain ⟨⟨x, y⟩, found, eq⟩ := Option.map_eq_some_iff.mp h
  obtain ⟨split, notin⟩ := splitOnce_eq_some found
  cases eq
  refine ⟨?_, by simpa using notin⟩
  rw [← List.reverse_reverse s, split]
  simp

/-- Whether a character has the Unicode property `White_Space`. -/
def isWhitespace (c : Char) : Bool :=
  let n := c.toNat
  (9 ≤ n && n ≤ 13) || n == 0x20 || n == 0x85 || n == 0xA0 || n == 0x1680 ||
    (0x2000 ≤ n && n ≤ 0x200A) || n == 0x2028 || n == 0x2029 || n == 0x202F || n == 0x205F ||
    n == 0x3000

theorem isWhitespace_toLower {c : Char} (h : isWhitespace c = false) :
    isWhitespace c.toLower = false := by
  rcases toLower_cases c with same | ⟨low, high, -⟩
  · rw [same, h]
  · simp only [isWhitespace, Bool.or_eq_false_iff, Bool.and_eq_false_iff, decide_eq_false_iff_not,
      beq_eq_false_iff_ne]
    omega

/-- `trim`. -/
def trim (s : Str) : Str := (s.dropWhile isWhitespace).rdropWhile isWhitespace

theorem trim_concat {s : Str} {c : Char} (space : isWhitespace c = true) :
    trim (s ++ [c]) = trim s := by
  unfold trim
  by_cases blank : ∀ x ∈ s, isWhitespace x = true
  · rw [List.dropWhile_append_of_pos blank, List.dropWhile_eq_nil_iff.mpr blank]
    simp [space]
  · obtain ⟨x, rest, left⟩ := List.exists_cons_of_ne_nil (mt List.dropWhile_eq_nil_iff.mp blank)
    rw [List.dropWhile_append, left]
    exact List.rdropWhile_concat_pos _ _ _ space

theorem head?_trim {s : Str} {c : Char} (first : (trim s).head? = some c) :
    isWhitespace c = false := by
  obtain ⟨rest, split⟩ := List.rdropWhile_prefix isWhitespace (s.dropWhile isWhitespace)
  have head : (s.dropWhile isWhitespace).head? = some c := by
    rw [← split, List.head?_append]
    unfold trim at first
    simp [first]
  have visible := List.head?_dropWhile_not isWhitespace s
  rw [head] at visible
  simpa using visible

@[simp] theorem trim_trim (s : Str) : trim (trim s) = trim s := by
  have undropped : (trim s).dropWhile isWhitespace = trim s := by
    cases value : trim s with
    | nil => rfl
    | cons c rest =>
        have shown := head?_trim (by rw [value]; rfl)
        rw [List.dropWhile_cons_of_neg (by simp [shown])]
  rw [trim, undropped]
  exact List.rdropWhile_idempotent _ _

theorem trim_cons_ne_nil {c : Char} (visible : isWhitespace c = false) (s : Str) :
    trim (c :: s) ≠ [] := by
  unfold trim
  rw [List.dropWhile_cons_of_neg (by simp [visible])]
  intro blank
  have space := List.rdropWhile_eq_nil_iff.mp blank c List.mem_cons_self
  rw [visible] at space
  cases space

/-- A white space at the end of a line does not count, in its comment or before it. -/
theorem trim_takeWhile_concat {c : Char} {keep : Char → Bool} (space : isWhitespace c = true)
    (kept : keep c = true) (line : Str) :
    trim ((line ++ [c]).takeWhile keep) = trim (line.takeWhile keep) := by
  rw [List.takeWhile_append]
  split
  · rename_i whole
    have last : [c].takeWhile keep = [c] := by simp [kept]
    rw [last, trim_concat space, (List.takeWhile_prefix _).eq_of_length whole]
  · rfl

/-- `split_whitespace`: the maximal runs without white space. -/
def splitWhitespace (s : Str) : List Str := (s.splitOnP isWhitespace).filter (!·.isEmpty)

theorem not_isWhitespace_of_mem {s f : Str} (h : f ∈ splitWhitespace s) :
    ∀ c ∈ f, isWhitespace c = false := by
  have inner : ∀ t : Str, ∀ f ∈ t.splitOnP isWhitespace, ∀ c ∈ f, isWhitespace c = false := by
    intro t
    induction t with
    | nil => simp
    | cons x t ih =>
        intro f hf c hc
        rw [List.splitOnP_cons_eq_if_modifyHead] at hf
        split at hf
        · rcases List.mem_cons.mp hf with rfl | hf
          · cases hc
          · exact ih f hf c hc
        · rename_i hx
          cases ht : t.splitOnP isWhitespace with
          | nil => exact absurd ht (List.splitOnP_ne_nil _ _)
          | cons g gs =>
              rw [ht, List.modifyHead_cons] at hf
              rcases List.mem_cons.mp hf with rfl | hf
              · rcases List.mem_cons.mp hc with rfl | hc
                · simpa using hx
                · exact ih g (by simp [ht]) c hc
              · exact ih f (by simp [ht, hf]) c hc
  exact inner s f (List.mem_of_mem_filter h)

theorem splitWhitespace_ne_nil {c : Char} {s : Str} (mem : c ∈ s)
    (visible : isWhitespace c = false) : splitWhitespace s ≠ [] := by
  unfold splitWhitespace
  induction s with
  | nil => cases mem
  | cons d s ih =>
      rw [List.splitOnP_cons_eq_if_modifyHead]
      split
      · rename_i space
        have later : c ∈ s := by
          rcases List.mem_cons.mp mem with rfl | later
          · rw [space] at visible
            cases visible
          · exact later
        rw [List.filter_cons_of_neg (by simp)]
        exact ih later
      · obtain ⟨first, rest, parts⟩ :=
          List.exists_cons_of_ne_nil (List.splitOnP_ne_nil isWhitespace s)
        rw [parts, List.modifyHead_cons, List.filter_cons_of_pos (by simp)]
        exact List.cons_ne_nil _ _

/-- What is left of a trimmed text has a field. -/
theorem splitWhitespace_trim_ne_nil {s : Str} (content : trim s ≠ []) :
    splitWhitespace (trim s) ≠ [] := by
  have last : ¬ isWhitespace ((trim s).getLast content) = true :=
    List.rdropWhile_last_not isWhitespace _ content
  exact splitWhitespace_ne_nil (List.getLast_mem content) (by simpa using last)

theorem splitWhitespace_cons_field {f : Str} {sep : Char} (ne : f ≠ [])
    (h : ∀ c ∈ f, isWhitespace c = false) (hsep : isWhitespace sep = true) (rest : Str) :
    splitWhitespace (f ++ sep :: rest) = f :: splitWhitespace rest := by
  rw [splitWhitespace, List.splitOnP_append_cons_of_forall_mem h sep hsep, List.filter_cons_of_pos]
  · rfl
  · simpa using ne

theorem splitWhitespace_field {f : Str} (ne : f ≠ []) (h : ∀ c ∈ f, isWhitespace c = false) :
    splitWhitespace f = [f] := by
  rw [splitWhitespace, List.splitOnP_eq_singleton h]
  simpa using ne

/-- The text before the first line end `\r\n`, or all of it. -/
def firstCrlfLine : Str → Str
  | '\r' :: '\n' :: _ => []
  | c :: s => c :: firstCrlfLine s
  | [] => []

theorem firstCrlfLine_append {s : Str} (h : '\r' ∉ s) (t : Str) :
    firstCrlfLine (s ++ '\r' :: '\n' :: t) = s := by
  induction s with
  | nil => rfl
  | cons c s ih =>
      have ne : c ≠ '\r' := fun eq => h (eq ▸ List.mem_cons_self)
      rw [List.cons_append, firstCrlfLine, ih fun mem => h (List.mem_cons_of_mem _ mem)]
      rintro rest rfl
      exact absurd rfl ne

/-! ### Numbers -/

/-- `char::to_digit`: the value of a digit below `radix`, letters in either case. -/
def toDigit (radix : Nat) (c : Char) : Option Nat :=
  let n := c.toNat
  let value :=
    if 48 ≤ n ∧ n ≤ 57 then some (n - 48)
    else if 97 ≤ n ∧ n ≤ 122 then some (n - 87)
    else if 65 ≤ n ∧ n ≤ 90 then some (n - 55)
    else none
  value.filter (· < radix)

def isDigitOf (radix : Nat) (c : Char) : Bool := (toDigit radix c).isSome

/-- The number a run of digits spells, most significant digit first. -/
def digitsValue (radix : Nat) (ds : Str) : Nat :=
  ds.foldl (fun acc c => acc * radix + (toDigit radix c).getD 0) 0

theorem toDigit_toLower (radix : Nat) (c : Char) : toDigit radix c.toLower = toDigit radix c := by
  rcases toLower_cases c with same | ⟨low, high, shifted⟩
  · rw [same]
  · unfold toDigit
    have h1 : ¬ (48 ≤ c.toLower.toNat ∧ c.toLower.toNat ≤ 57) := by omega
    have h2 : ¬ (48 ≤ c.toNat ∧ c.toNat ≤ 57) := by omega
    have h3 : ¬ (97 ≤ c.toNat ∧ c.toNat ≤ 122) := by omega
    have h4 : 65 ≤ c.toNat ∧ c.toNat ≤ 90 := by omega
    simp only [h1, h2, h3, h4, low, high, and_self, if_true, if_false]
    congr 2
    omega

theorem toDigit_digitChar {radix n : Nat} (hr : radix ≤ 16) (hn : n < radix) :
    toDigit radix n.digitChar = some n := by
  have small : n < 16 := by omega
  have value : ∀ m < 16, toDigit 16 m.digitChar = some m := by decide
  have := value n small
  unfold toDigit at this ⊢
  rw [Option.filter_eq_some_iff] at this ⊢
  exact ⟨this.1, by simpa using hn⟩

theorem digitsValue_append_singleton (radix : Nat) (ds : Str) (c : Char) :
    digitsValue radix (ds ++ [c]) = digitsValue radix ds * radix + (toDigit radix c).getD 0 := by
  simp [digitsValue]

theorem digitsValue_toDigits {radix : Nat} (h1 : 1 < radix) (h16 : radix ≤ 16) (n : Nat) :
    digitsValue radix (Nat.toDigits radix n) = n := by
  induction n using Nat.strong_induction_on with
  | _ n ih =>
      rw [Nat.toDigits_eq_if h1]
      split
      · rename_i small
        simp [digitsValue, toDigit_digitChar h16 small]
      · rename_i large
        have lt : n / radix < n := Nat.div_lt_self (by omega) h1
        rw [digitsValue_append_singleton, ih _ lt,
          toDigit_digitChar h16 (Nat.mod_lt _ (by omega)), Option.getD_some]
        rw [Nat.mul_comm]
        exact Nat.div_add_mod n radix

theorem isDigitOf_of_mem_toDigits {radix : Nat} (h1 : 1 < radix) (h16 : radix ≤ 16) (n : Nat) :
    ∀ c ∈ Nat.toDigits radix n, isDigitOf radix c = true := by
  induction n using Nat.strong_induction_on with
  | _ n ih =>
      rw [Nat.toDigits_eq_if h1]
      split
      · rename_i small
        simp [isDigitOf, toDigit_digitChar h16 small]
      · rename_i large
        intro c hc
        rcases List.mem_append.mp hc with hc | hc
        · exact ih _ (Nat.div_lt_self (by omega) h1) c hc
        · rw [List.mem_singleton.mp hc]
          simp [isDigitOf, toDigit_digitChar h16 (Nat.mod_lt n (by omega))]

/-- A numeral of two or more digits does not start with `0`. -/
theorem head_toDigits_ne_zero {radix : Nat} (h1 : 1 < radix) {n : Nat} (h : n ≠ 0) :
    (Nat.toDigits radix n).head? ≠ some '0' := by
  induction n using Nat.strong_induction_on with
  | _ n ih =>
      rw [Nat.toDigits_eq_if h1]
      split
      · simpa using h
      · rename_i large
        have ne : n / radix ≠ 0 := by
          have := Nat.div_pos (by omega : radix ≤ n) (by omega)
          omega
        rw [List.head?_append_of_ne_nil _ Nat.toDigits_ne_nil]
        exact ih _ (Nat.div_lt_self (by omega) h1) ne

/-- `Display` of an unsigned integer. -/
def decimal (n : Nat) : Str := Nat.toDigits 10 n

/-- `{:x}` of an unsigned integer. -/
def hex (n : Nat) : Str := Nat.toDigits 16 n

/-- `str::parse` of an unsigned integer at most `max`: an optional `+`, then one or more
decimal digits, leading zeros included. -/
def parseUnsigned (max : Nat) (s : Str) : Option Nat :=
  let digits := match s with
    | '+' :: rest => rest
    | _ => s
  if digits.isEmpty || !digits.all (isDigitOf 10) then none
  else if digitsValue 10 digits ≤ max then some (digitsValue 10 digits) else none

theorem le_of_parseUnsigned {max n : Nat} {s : Str}
    (parsed : parseUnsigned max s = some n) : n ≤ max := by
  unfold parseUnsigned at parsed
  extract_lets digits at parsed
  split at parsed
  · cases parsed
  · split at parsed
    · rename_i fits
      cases parsed
      exact fits
    · cases parsed

theorem isDigitOf_of_mem_decimal {n : Nat} {c : Char} (h : c ∈ decimal n) : isDigitOf 10 c = true :=
  isDigitOf_of_mem_toDigits (by omega) (by omega) n c h

theorem decimal_ne_nil (n : Nat) : decimal n ≠ [] := Nat.toDigits_ne_nil

theorem parseUnsigned_decimal {max n : Nat} (h : n ≤ max) :
    parseUnsigned max (decimal n) = some n := by
  have value : digitsValue 10 (decimal n) = n := digitsValue_toDigits (by omega) (by omega) n
  have accepted : ¬ ((decimal n).isEmpty || !(decimal n).all (isDigitOf 10)) = true := by
    have digits : (decimal n).all (isDigitOf 10) = true :=
      List.all_eq_true.mpr fun _ => isDigitOf_of_mem_decimal
    simp [digits, decimal_ne_nil]
  unfold parseUnsigned
  split
  · rename_i rest eq
    have sign : isDigitOf 10 '+' = true := isDigitOf_of_mem_decimal (n := n) (by simp [eq])
    exact absurd sign (by decide)
  · rw [if_neg accepted, value, if_pos h]

end Commeatus.Lib
