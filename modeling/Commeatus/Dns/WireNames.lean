import Commeatus.Dns.Labels

/-!
Names that the decoder has to take.

A host name on the wire is a run of ASCII labels without dots that may go on
behind pointers, each to an earlier place. Within the bounds on its length and
its pointers the decoder takes every such name, joined with dots and in
lowercase, and ends where the name ends.
-/

namespace Commeatus.Dns

open Commeatus.Lib Commeatus.Core

variable {message : Bytes} {offset hops behind : Nat} {labels : List Str} {name : Str}

/-- The labels of the name at the offset, the number of pointers on the way, and where the name
ends. -/
inductive NameAt (message : Bytes) : Nat → Nat → List Str → Nat → Prop where
  | root {offset : Nat} (zero : message[offset]? = some 0) : NameAt message offset 0 [] (offset + 1)
  | label {offset hops behind : Nat} {length : UInt8} {label : Str} {labels : List Str}
      (read : message[offset]? = some length)
      (positive : 0 < length.toNat) (short : length.toNat < 64)
        (inside : offset + 1 + length.toNat ≤ message.length)
      (octets : utf8 label = (message.drop (offset + 1)).take length.toNat)
        (ascii : isAscii label = true)
      (rest : NameAt message (offset + 1 + length.toNat) hops labels behind) :
      NameAt message offset hops (label :: labels) behind
  | pointer {offset hops behind : Nat} {high low : UInt8} {labels : List Str}
      (read : message[offset]? = some high)
      (marked : 192 ≤ high.toNat) (follows : message[offset + 1]? = some low)
      (backward : (high.toNat - 192) * 256 + low.toNat < offset)
      (rest : NameAt message ((high.toNat - 192) * 256 + low.toNat) hops labels behind) :
      NameAt message offset (hops + 1) labels (offset + 2)

theorem NameAt.wire (at_ : NameAt message offset hops labels behind) :
    WireLabels message offset labels := by
  induction at_ with
  | root zero => exact .root zero
  | label read positive short inside octets ascii rest ih =>
      exact .label read positive short inside octets ih
  | pointer read marked follows backward rest ih => exact .pointer read marked follows ih

theorem NameAt.labels_short (at_ : NameAt message offset hops labels behind) :
    ∀ label ∈ labels, isAscii label = true ∧
    byteLen label ≤ 63 := by
  induction at_ with
  | root => exact fun _ no => absurd no List.not_mem_nil
  | label read positive short inside octets ascii rest ih =>
      intro label member
      rcases List.mem_cons.mp member with rfl | later
      · refine ⟨ascii, ?_⟩
        rw [byteLen, octets, List.length_take]
        omega
      · exact ih label later
  | pointer read marked follows backward rest ih => exact ih

/-- The octet of a short label has neither of the upper two bits. -/
theorem unmarked {length : UInt8} (short : length.toNat < 64) : length &&& 0xc0 = 0 ∧
    ¬ length &&& 0xc0 = 0xc0 := by
  have all : ∀ n : Fin 256, n.val < 64 → UInt8.ofNat n &&& 0xc0 = 0 ∧ ¬ UInt8.ofNat n &&& 0xc0 =
      0xc0 := by decide +kernel
  have at_length := all ⟨length.toNat, length.toNat_lt⟩ short
  rwa [UInt8.ofNat_toNat] at at_length

/-- The size of labels with a separator for each. -/
def spread (labels : List Str) : Nat := (labels.map fun label => byteLen label + 1).sum

theorem spread_append (labels labels' : List Str) :
    spread (labels ++ labels') = spread labels + spread labels' := by
  simp [spread]

@[simp] theorem spread_cons (label : Str) (labels : List Str) :
    spread (label :: labels) = byteLen label + 1 + spread labels := by
  simp [spread]

@[simp] theorem spread_nil : spread [] = 0 := rfl

@[simp] theorem spread_folded (labels : List Str) : spread (folded labels) = spread labels := by
  simp [spread, folded, Function.comp_def]

/-- The bytes that the decoder has counted are those of the labels and the separators between
them. -/
theorem spread_concat (labels : List Str) (label : Str) :
    spread (labels ++ [label]) - 1 = (spread labels - 1) +
      (byteLen label + if labels.isEmpty then 0 else 1) := by
  rw [spread_append]
  cases labels with
  | nil => simp
  | cons first labels =>
      simp only [spread_cons, spread_nil, List.isEmpty_cons, Bool.false_eq_true, if_false]
      omega

/-- The decoder takes a name within its bounds, and appends its labels. -/
theorem decodeLabels_of_nameAt (at_ : NameAt message offset hops labels behind) {s : NameState}
    (cursor : s.cursor = offset)
    (counted : s.decodedBytes = spread s.labels - 1) (fits : spread s.labels + spread labels ≤ 254)
    (few : s.hops + hops ≤ maxDnsNamePointerHops) :
    decodeLabels message s = .ok (s.labels ++ folded labels, s.resume.getD behind) := by
  induction at_ generalizing s with
  | root zero =>
      rw [decodeLabels, cursor, zero]
      simp [folded]
  | @label offset hops behind length label labels read positive short within octets ascii rest ih =>
      obtain ⟨plain, unmarked⟩ := unmarked short
      have size : byteLen label = length.toNat := by
        rw [byteLen, octets, List.length_take, List.length_drop]
        omega
      have nonzero : length ≠ 0 := by
        rintro rfl
        exact absurd positive (by decide)
      have decoded : fromUtf8 ((message.drop (offset + 1)).take length.toNat) = some label :=
        fromUtf8_eq_some_iff.mpr octets
      have lower : byteLen (toAsciiLowercase label) = length.toNat := by
        rw [byteLen_toAsciiLowercase, size]
      rw [spread_cons, size] at fits
      have counted' := spread_concat s.labels (toAsciiLowercase label)
      rw [lower, ← counted] at counted'
      have total : spread (s.labels ++ [toAsciiLowercase label]) = spread s.labels +
          (length.toNat + 1) := by
        rw [spread_append, spread_cons, lower, spread_nil, Nat.add_zero]
      rw [decodeLabels, cursor, read]
      dsimp only
      rw [if_neg unmarked, if_neg (not_not.mpr plain), if_neg nonzero, if_neg (by omega),
        if_neg (by omega), decoded]
      dsimp only
      rw [if_neg (by simpa using ascii), if_neg (by omega)]
      refine Eq.trans (ih rfl counted'.symm ?_ few) ?_
      · rw [total]
        omega
      · simp [folded]
  | @pointer offset hops behind high low labels read marked follows backward rest ih =>
      obtain ⟨mark, masked⟩ := masked high
      have here := (List.getElem?_eq_some_iff.mp read).1
      rw [decodeLabels, cursor, read]
      dsimp only
      rw [if_pos (mark.mpr marked), follows]
      dsimp only
      rw [masked marked, if_neg (by omega), if_neg (by omega), if_neg (by omega)]
      refine Eq.trans (ih rfl counted fits ?_) rfl
      dsimp only
      omega

/-- A host name at the offset: some labels without dots, within the bounds, joined and in
lowercase. -/
structure HostNameAt (message : Bytes) (offset : Nat) (name : Str) (behind : Nat) : Prop where
  named : ∃ hops labels, NameAt message offset hops labels behind ∧
    hops ≤ maxDnsNamePointerHops ∧ labels ≠ [] ∧
    DotFree labels ∧ name = ['.'].intercalate (folded labels)
  short : byteLen name ≤ 253

theorem dot_size : '.'.utf8Size = 1 := rfl

theorem byteLen_joined (free : DotFree labels) (nonempty : labels ≠ []) :
    byteLen (['.'].intercalate (folded labels)) + 1 = spread labels := by
  have nonempty' : folded labels ≠ [] := by simpa [folded] using nonempty
  rw [byteLen_splitOn dot_size,
    List.splitOn_intercalate '.' (folded_dotFree_iff.mpr free) nonempty']
  exact spread_folded labels

/-- The decoder takes every host name, and ends where it ends. -/
theorem decodeName_of_hostNameAt (host : HostNameAt message offset name behind) :
    decodeName message offset = .ok (name, behind) := by
  obtain ⟨⟨hops, labels, at_, few, nonempty, free, rfl⟩, short⟩ := host
  have size := byteLen_joined free nonempty
  have words : ∀ label ∈ labels, label ≠ [] := at_.wire.ne_nil
  have decoded : decodeLabels message { cursor := offset } = .ok (folded labels, behind) :=
    decodeLabels_of_nameAt at_ rfl rfl (by rw [spread_nil]; omega) (by simpa using few)
  have trimmed := lowercase_trim_joined free words nonempty
  have ascii : isAscii (['.'].intercalate (folded labels)) = true := by
    refine isAscii_iff.mpr fun c mem => ?_
    rcases mem_intercalate mem with rfl | ⟨word, listed, inWord⟩
    · decide
    · obtain ⟨label, member, rfl⟩ := List.mem_map.mp listed
      exact isAscii_iff.mp ((isAscii_toAsciiLowercase label).trans
        (at_.labels_short label member).1) c inWord
  have split : (['.'].intercalate (folded labels)).splitOn '.' = folded labels :=
    List.splitOn_intercalate '.' (folded_dotFree_iff.mpr free) (by simpa [folded] using nonempty)
  have sized : labelsOk (['.'].intercalate (folded labels)) = true := by
    rw [labelsOk, split, List.all_eq_true]
    intro word listed
    obtain ⟨label, member, rfl⟩ := List.mem_map.mp listed
    have short := (at_.labels_short label member).2
    have word : toAsciiLowercase label ≠ [] := by simpa using words label member
    simp [short, word]
  have some_name : ['.'].intercalate (folded labels) ≠ [] := by
    obtain ⟨joined, -, -⟩ := intercalate_ends nonempty words free
    have dot : '.'.toLower = '.' := by decide
    have lower := toAsciiLowercase_intercalate dot labels
    change ['.'].intercalate (labels.map toAsciiLowercase) ≠ []
    rw [← lower]
    simpa using joined
  have normal : normalizeName (['.'].intercalate (folded labels)) =
      .ok (['.'].intercalate (folded labels)) := by
    unfold normalizeName
    rw [trimmed]
    simp [some_name, short, ascii, sized]
  have listed : folded labels ≠ [] := by simpa [folded] using nonempty
  unfold decodeName
  rw [decoded, ok_bind]
  dsimp only
  rw [refuse_of_not listed, ok_bind, normal]
  rfl

end Commeatus.Dns
