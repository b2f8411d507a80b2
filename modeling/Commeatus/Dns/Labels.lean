import Commeatus.Dns.Response

/-!
Names as sequences of labels.

The decoder joins the labels of a name with dots and compares the joined
texts. An octet of a label may itself be a dot; where none is, the text tells
the labels, and comparing texts is comparing sequences of labels.
-/

namespace Commeatus.Dns

open Commeatus.Lib Commeatus.Core

/-- The labels of the name that starts at the offset, as the octets of the message have them. A
pointer, of two octets with the upper two bits set, leads to where the labels go on. -/
inductive WireLabels (message : Bytes) : Nat → List Str → Prop where
  | root {offset : Nat} (zero : message[offset]? = some 0) : WireLabels message offset []
  | label {offset : Nat} {length : UInt8} {label : Str} {labels : List Str}
      (read : message[offset]? = some length)
      (positive : 0 < length.toNat) (short : length.toNat < 64)
        (inside : offset + 1 + length.toNat ≤ message.length)
      (octets : utf8 label = (message.drop (offset + 1)).take length.toNat)
      (rest : WireLabels message (offset + 1 + length.toNat) labels) :
        WireLabels message offset (label :: labels)
  | pointer {offset : Nat} {high low : UInt8} {labels : List Str}
      (read : message[offset]? = some high)
      (marked : 192 ≤ high.toNat) (follows : message[offset + 1]? = some low)
      (rest : WireLabels message ((high.toNat - 192) * 256 + low.toNat) labels) :
        WireLabels message offset labels

/-- No octet of a label is a dot. -/
def DotFree (labels : List Str) : Prop := ∀ label ∈ labels, '.' ∉ label

/-- The labels, in lowercase. -/
def folded (labels : List Str) : List Str := labels.map toAsciiLowercase

variable {message message' : Bytes} {offset offset' behind behind' : Nat} {name name' : Str}
    {labels labels' : List Str}

/-- The octets of a name say its labels. -/
theorem WireLabels.unique (wire : WireLabels message offset labels)
    (wire' : WireLabels message offset labels') :
    labels = labels' := by
  induction wire generalizing labels' with
  | root zero =>
      cases wire' with
      | root => rfl
      | label read positive =>
          cases zero.symm.trans read
          simp at positive
      | pointer read marked =>
          cases zero.symm.trans read
          simp at marked
  | label read positive short inside octets rest ih =>
      cases wire' with
      | root zero =>
          cases zero.symm.trans read
          simp at positive
      | label read' positive' short' inside' octets' rest' =>
          cases read.symm.trans read'
          rw [utf8_inj (octets.trans octets'.symm), ih rest']
      | pointer read' marked =>
          cases read.symm.trans read'
          omega
  | pointer read marked follows rest ih =>
      cases wire' with
      | root zero =>
          cases zero.symm.trans read
          simp at marked
      | label read' positive short =>
          cases read.symm.trans read'
          omega
      | pointer read' marked' follows' rest' =>
          cases read.symm.trans read'
          cases follows.symm.trans follows'
          exact ih rest'

theorem WireLabels.ne_nil (wire : WireLabels message offset labels) :
    ∀ label ∈ labels, label ≠ [] := by
  induction wire with
  | root => exact fun _ no => absurd no List.not_mem_nil
  | label read positive short inside octets rest ih =>
      intro label member
      rcases List.mem_cons.mp member with rfl | later
      · rintro rfl
        have none : ((message.drop _).take _).length = 0 := congrArg List.length octets.symm
        rw [List.length_take, List.length_drop] at none
        omega
      · exact ih label later
  | pointer read marked follows rest ih => exact ih

/-- The mask that the decoder tests, as numbers. -/
theorem masked (length : UInt8) : (length &&& 0xc0 = 0xc0 ↔ 192 ≤ length.toNat) ∧
    (192 ≤ length.toNat → (length &&& 0x3f).toNat = length.toNat - 192) := by
  have all : ∀ n : Fin 256, (UInt8.ofNat n &&& 0xc0 = 0xc0 ↔ 192 ≤ n.val) ∧
      (192 ≤ n.val → (UInt8.ofNat n &&& 0x3f).toNat = n.val - 192) := by decide +kernel
  have at_length := all ⟨length.toNat, length.toNat_lt⟩
  rwa [UInt8.ofNat_toNat] at at_length

/-- The decoder appends the labels that stand at its cursor. -/
theorem decodeLabels_wire {s : NameState}
    (decoded : decodeLabels message s = .ok (labels, behind)) :
    ∃ rest, WireLabels message s.cursor rest ∧ labels = s.labels ++ folded rest := by
  fun_induction decodeLabels message s with
  | case6 s high read mark low follows pointer inside backward few ih =>
      obtain ⟨marked, masked⟩ := masked high
      obtain ⟨rest, wire, joined⟩ := ih decoded
      refine ⟨rest, .pointer read (marked.mp mark) follows ?_, joined⟩
      rwa [← masked (marked.mp mark)]
  | case8 s read =>
      cases decoded
      exact ⟨[], .root read, (List.append_nil _).symm⟩
  | case14 s length read unmarked plain nonzero short inside label octets ascii few ih =>
      obtain ⟨rest, wire, joined⟩ := ih decoded
      have positive : 0 < length.toNat :=
        Nat.pos_of_ne_zero fun none => nonzero (UInt8.toNat_inj.mp none)
      refine ⟨label :: rest, .label read positive (by omega) (by omega)
        (fromUtf8_eq_some_iff.mp octets) wire, ?_⟩
      rw [joined, List.append_assoc]
      rfl
  | _ => cases decoded

theorem folded_dotFree_iff : DotFree (folded labels) ↔ DotFree labels := by
  have dot : ∀ c : Char, c.toLower = '.' ↔ c = '.' := fun c => toLower_eq_iff (.inl (by decide))
  simp [DotFree, folded, toAsciiLowercase, dot]

/-- The decoded name is the labels joined with dots, trimmed of dots at both ends. -/
theorem decodeName_wire (decoded : decodeName message offset = .ok (name, behind)) :
    ∃ labels, WireLabels message offset labels ∧ labels ≠ [] ∧
      name = toAsciiLowercase (trimMatches '.' (['.'].intercalate (folded labels))) := by
  obtain ⟨⟨joined, resume⟩, read, rest⟩ := bind_eq_ok_iff.mp decoded
  obtain ⟨nonempty, rest⟩ := refuse_bind_eq_ok_iff.mp rest
  obtain ⟨labels, wire, rfl⟩ := decodeLabels_wire read
  refine ⟨labels, wire, ?_, ?_⟩
  · rintro rfl
    exact nonempty rfl
  · dsimp only at rest
    split at rest
    · rename_i valid
      cases rest
      exact (normalizeName_eq_ok valid).1
    · cases rest

/-- Labels without dots are not trimmed when they are joined. -/
theorem lowercase_trim_joined (free : DotFree labels) (words : ∀ label ∈ labels, label ≠ [])
    (nonempty : labels ≠ []) :
    toAsciiLowercase (trimMatches '.' (['.'].intercalate (folded labels))) =
      ['.'].intercalate (folded labels) := by
  have words' : ∀ label ∈ folded labels, label ≠ [] := by
    intro label member
    obtain ⟨original, listed, rfl⟩ := List.mem_map.mp member
    simpa using words original listed
  have nonempty' : folded labels ≠ [] := by simpa [folded] using nonempty
  obtain ⟨-, head, last⟩ := intercalate_ends nonempty' words' (folded_dotFree_iff.mpr free)
  have lower : (folded labels).map toAsciiLowercase = folded labels := by simp [folded]
  rw [trimMatches_eq_self head last, toAsciiLowercase_intercalate (by decide), lower]

theorem splitOn_of_dotFree (decoded : decodeName message offset = .ok (name, behind))
    (wire : WireLabels message offset labels)
    (free : DotFree labels) : name.splitOn '.' = folded labels := by
  obtain ⟨read, wireRead, nonempty, joined⟩ := decodeName_wire decoded
  cases wireRead.unique wire
  rw [joined, lowercase_trim_joined free wire.ne_nil nonempty]
  exact List.splitOn_intercalate '.' (folded_dotFree_iff.mpr free)
    (by simpa [folded] using nonempty)

/-- A decoded name splits into the labels that were read exactly when none of them has a dot; and
then comparing it with a query's name, or with another such name, is comparing labels. -/
theorem decoded_name_is_labels_iff (decoded : decodeName message offset = .ok (name, behind)) :
    ∃ labels, WireLabels message offset labels ∧
      (∀ other, WireLabels message offset other → other = labels) ∧
      (name.splitOn '.' = folded labels ↔ DotFree labels) ∧
      (DotFree labels → (∀ query : DnsQuery, name = query.name ↔
        folded labels = query.name.splitOn '.') ∧
        ∀ message' offset' name' behind' labels', decodeName message' offset' =
          .ok (name', behind') →
          WireLabels message' offset' labels' → DotFree labels' →
          (name = name' ↔ folded labels = folded labels')) := by
  obtain ⟨labels, wire, -, -⟩ := decodeName_wire decoded
  have splits := splitOn_of_dotFree decoded wire
  refine ⟨labels, wire, fun other wire' => wire'.unique wire, ⟨fun split => ?_, splits⟩,
    fun free => ⟨fun query => ?_, ?_⟩⟩
  · refine folded_dotFree_iff.mp fun label member => ?_
    rw [← split] at member
    exact not_mem_of_mem_splitOn member
  · rw [← splits free, splitOn_inj]
  · intro message' offset' name' behind' labels' decoded' wire' free'
    rw [← splits free, ← splitOn_of_dotFree decoded' wire' free', splitOn_inj]

/-- The question of the sample response has the labels `a` and `b`. -/
theorem sampleResponse_labels : WireLabels sampleResponse dnsHeaderBytes ["a".toList, "b".toList] :=
  @WireLabels.label _ _ 1 _ _ (by decide) (by decide) (by decide) (by decide) (by decide +kernel)
    (@WireLabels.label _ _ 1 _ _ (by decide) (by decide) (by decide) (by decide) (by decide +kernel)
      (.root (by decide)))

/-- The alias has the label `c`, and then those behind the `a` of the question. -/
theorem sampleResponse_aliasLabels : WireLabels sampleResponse 33 ["c".toList, "b".toList] :=
  @WireLabels.label _ _ 1 _ _ (by decide) (by decide) (by decide) (by decide) (by decide +kernel)
    (@WireLabels.pointer _ _ 0xc0 14 _ (by decide) (by decide) (by decide)
      (@WireLabels.label _ _ 1 _ _ (by decide) (by decide) (by decide) (by decide)
        (by decide +kernel)
        (.root (by decide))))

theorem decoded_name_is_labels_iff_example :
    "a.b".toList.splitOn '.' = folded ["a".toList, "b".toList] ∧
      folded ["a".toList, "b".toList] = (⟨"a.b".toList, by decide⟩ : DnsQuery).name.splitOn '.' ∧
      folded ["a".toList, "b".toList] ≠ folded ["c".toList, "b".toList] := by
  have decoded : decodeName sampleResponse dnsHeaderBytes = .ok ("a.b".toList, 17) := by
    decide +kernel
  have decoded' : decodeName sampleResponse 33 = .ok ("c.b".toList, 37) := by decide +kernel
  obtain ⟨labels, -, same, splits, compares⟩ := decoded_name_is_labels_iff decoded
  cases same _ sampleResponse_labels
  have free : DotFree ["a".toList, "b".toList] := by
    intro label member
    simp only [List.mem_cons, List.not_mem_nil, or_false] at member
    rcases member with rfl | rfl <;> decide
  have free' : DotFree ["c".toList, "b".toList] := by
    intro label member
    simp only [List.mem_cons, List.not_mem_nil, or_false] at member
    rcases member with rfl | rfl <;> decide
  obtain ⟨withQuery, withName⟩ := compares free
  refine ⟨splits.mpr free, (withQuery ⟨"a.b".toList, by decide⟩).mp rfl, ?_⟩
  have other := withName sampleResponse 33 _ _ _ decoded' sampleResponse_aliasLabels free'
  exact fun no => absurd (other.mpr no) (by decide)

/-- A response whose question is the single label `a.b`, with the address of that name. -/
def dottedResponse : Bytes :=
  [0x12, 0x34, 0x81, 0x80, 0, 1, 0, 1, 0, 0, 0, 0] ++
    [3, 97, 46, 98, 0, 0, 1, 0, 1] ++
    [0xc0, 12, 0, 1, 0, 1, 0, 0, 0, 20, 0, 4, 192, 0, 2, 1]

/-- The single label is accepted as the answer to the query for the two labels `a` and `b`: both
decode to the same text. -/
theorem dotted_label_taken_for_two : WireLabels dottedResponse dnsHeaderBytes ["a.b".toList] ∧
    WireLabels sampleResponse dnsHeaderBytes ["a".toList, "b".toList] ∧
    decodeName dottedResponse dnsHeaderBytes = .ok ("a.b".toList, 17) ∧
    decodeName sampleResponse dnsHeaderBytes = .ok ("a.b".toList, 17) ∧
    "a.b".toList.splitOn '.' ≠ folded ["a.b".toList] ∧
    (parseAddressResponse 0x1234 ⟨"a.b".toList, by decide⟩ .a dottedResponse).toOption.map
      DnsAnswer.addresses =
      some [.v4 ⟨192, 0, 2, 1⟩] := by
  refine ⟨?_, sampleResponse_labels, by
    decide +kernel, by decide +kernel, by decide, by decide +kernel⟩
  exact @WireLabels.label _ _ 3 _ _ (by decide) (by decide) (by decide) (by decide)
    (by decide +kernel) (.root (by decide))

end Commeatus.Dns
