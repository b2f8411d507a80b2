import Mathlib.Data.List.Forall2
import Mathlib.Data.List.Basic

/-!
Frames in a byte stream.

A `Framing` decodes one frame from the front of a buffer, or asks for more
bytes, or refuses. What makes it usable on a stream is that a verdict never
changes when more bytes arrive. From that alone it follows that every proper
prefix of an encoded frame asks for more, and that a reader which appends
chunks and takes frames at any points delivers exactly the frames that were
sent, however the stream is cut.
-/

namespace Commeatus.Lib

variable {β α ε : Type}

structure Framing (β α ε : Type) where
  decode : List β → Except ε (Option (α × Nat))
  decode_nil : decode [] = .ok none
  consumed_le : ∀ {buffer a n}, decode buffer = .ok (some (a, n)) → n ≤ buffer.length
  stable : ∀ {buffer}, decode buffer ≠ .ok none → ∀ more, decode (buffer ++ more) = decode buffer

namespace Framing

variable (f : Framing β α ε)

/-- `bytes` is a frame that carries `a`. -/
def Encodes (a : α) (bytes : List β) : Prop := f.decode bytes = .ok (some (a, bytes.length))

/-- Take one frame off the front of a buffer. -/
def take (buffer : List β) : Except ε (Option α) × List β :=
  match f.decode buffer with
  | .error e => (.error e, buffer)
  | .ok none => (.ok none, buffer)
  | .ok (some (a, n)) => (.ok (some a), buffer.drop n)

variable {f}

theorem decode_append {a : α} {bytes : List β} (h : f.Encodes a bytes) (rest : List β) :
    f.decode (bytes ++ rest) = .ok (some (a, bytes.length)) := by
  rw [f.stable _ rest, h]
  rw [h]
  exact fun eq => nomatch eq

/-- A proper prefix of a frame asks for more bytes. -/
theorem decode_of_lt {a : α} {buffer rest : List β}
    (h : f.Encodes a (buffer ++ rest)) (ne : rest ≠ []) :
    f.decode buffer = .ok none := by
  by_contra verdict
  have same := f.stable verdict rest
  rw [h] at same
  have bound := f.consumed_le same.symm
  have positive : 0 < rest.length := List.length_pos_iff.mpr ne
  rw [List.length_append] at bound
  omega

theorem take_frame {a : α} {bytes : List β} (h : f.Encodes a bytes) (rest : List β) :
    f.take (bytes ++ rest) = (.ok (some a), rest) := by
  simp only [take, decode_append h, List.drop_left]

theorem take_none {buffer : List β} (h : f.decode buffer = .ok none) :
    f.take buffer = (.ok none, buffer) := by
  simp only [take, h]

/-- The buffer begins with at most the given number of complete frames. -/
def AtMost (f : Framing β α ε) : Nat → List β → Prop
  | 0, buffer => ∀ frame, f.decode buffer ≠ .ok (some frame)
  | frames + 1, buffer =>
      ∀ a n, f.decode buffer = .ok (some (a, n)) → AtMost f frames (buffer.drop n)

theorem atMost_of_incomplete {buffer : List β} (incomplete : f.AtMost 0 buffer) (frames : Nat) :
    f.AtMost frames buffer := by
  cases frames with
  | zero => exact incomplete
  | succ frames => exact fun a n decoded => absurd decoded (incomplete (a, n))

theorem AtMost.take {frames : Nat} {buffer rest : List β} {a : α}
    (few : f.AtMost (frames + 1) buffer)
    (taken : f.take buffer = (.ok (some a), rest)) : f.AtMost frames rest := by
  unfold Framing.take at taken
  split at taken
  · cases taken
  · cases taken
  · rename_i n decoded
    cases taken
    exact few a n decoded

end Framing

/-! ### Readers -/

/-- What a reader does: a chunk arrives, or it takes a frame. -/
inductive StreamOp (β : Type) where
  | append (chunk : List β)
  | take

/-- The bytes that arrive in the course of some operations. -/
def appended : List (StreamOp β) → List β
  | [] => []
  | .append chunk :: ops => chunk ++ appended ops
  | .take :: ops => appended ops

namespace Framing

/-- The frames delivered by a reader and the bytes left in its buffer. -/
def run (f : Framing β α ε) : List (StreamOp β) → List β → Except ε (List α × List β)
  | [], buffer => .ok ([], buffer)
  | .append chunk :: ops, buffer => f.run ops (buffer ++ chunk)
  | .take :: ops, buffer =>
      match f.take buffer with
      | (.error e, _) => .error e
      | (.ok none, buffer) => f.run ops buffer
      | (.ok (some a), buffer) => (f.run ops buffer).map fun out => (a :: out.1, out.2)

variable {f : Framing β α ε}

/-- While the buffer and what arrives are a prefix of the frames sent, the reader delivers a prefix
of them and keeps exactly the rest. -/
theorem run_delivers {sent : List α} {frames : List (List β)}
    (encoded : List.Forall₂ f.Encodes sent frames)
    (ops : List (StreamOp β)) {buffer : List β}
    (arriving : buffer ++ appended ops <+: frames.flatten) :
    ∃ k rest, f.run ops buffer = .ok (sent.take k, rest) ∧
      (frames.take k).flatten ++ rest = buffer ++ appended ops := by
  induction ops generalizing buffer sent frames with
  | nil => exact ⟨0, buffer, by simp [run], by simp [appended]⟩
  | cons op ops ih =>
      cases op with
      | append chunk =>
          have arriving' : (buffer ++ chunk) ++ appended ops <+: frames.flatten := by
            simpa [appended] using arriving
          obtain ⟨k, rest, result, kept⟩ := ih encoded arriving'
          exact ⟨k, rest, result, by simpa [appended] using kept⟩
      | take =>
          have more : buffer ++ appended ops <+: frames.flatten := arriving
          cases encoded with
          | nil =>
              -- Nothing was sent, so the buffer is empty.
              have empty : buffer = [] := by
                have := List.prefix_nil.mp more
                exact (List.append_eq_nil_iff.mp this).1
              obtain ⟨k, rest, result, kept⟩ := ih .nil more
              refine ⟨k, rest, ?_, kept⟩
              rw [run, take_none (by rw [empty, f.decode_nil])]
              exact result
          | @cons a bytes sent frames first encoded =>
              rcases List.prefix_or_prefix_of_prefix ((List.prefix_append buffer _).trans more)
                (List.prefix_append bytes frames.flatten) with inFrame | whole
              · obtain ⟨missing, rfl⟩ := inFrame
                by_cases complete : missing = []
                · subst complete
                  simp only [List.append_nil] at first more
                  have arriving' : [] ++ appended ops <+: frames.flatten := by
                    simpa using more
                  obtain ⟨k, rest, result, kept⟩ := ih encoded arriving'
                  refine ⟨k + 1, rest, ?_, ?_⟩
                  · have taken := take_frame first []
                    rw [List.append_nil] at taken
                    rw [run, taken]
                    simp [result, Except.map]
                  · simpa [appended] using kept
                · obtain ⟨k, rest, result, kept⟩ := ih (.cons first encoded) more
                  refine ⟨k, rest, ?_, kept⟩
                  rw [run, take_none (decode_of_lt first complete)]
                  exact result
              · obtain ⟨later, rfl⟩ := whole
                have arriving' : later ++ appended ops <+: frames.flatten := by
                  simpa using more
                obtain ⟨k, rest, result, kept⟩ := ih encoded arriving'
                refine ⟨k + 1, rest, ?_, ?_⟩
                · rw [run, take_frame first]
                  simp [result, Except.map]
                · simpa [appended] using kept

/-- Once everything has arrived, taking again and again delivers everything. -/
theorem run_take_all {sent : List α} {frames : List (List β)}
    (encoded : List.Forall₂ f.Encodes sent frames)
    {n : Nat} (enough : sent.length ≤ n) :
    f.run (List.replicate n .take) frames.flatten = .ok (sent, []) := by
  induction n generalizing sent frames with
  | zero =>
      have none_sent : sent = [] := List.length_eq_zero_iff.mp (by omega)
      subst none_sent
      cases encoded
      rfl
  | succ n ih =>
      rw [List.replicate_succ, run]
      cases encoded with
      | nil =>
          rw [List.flatten_nil, take_none f.decode_nil]
          exact ih .nil (by simp)
      | cons first encoded =>
          rw [List.flatten_cons, take_frame first]
          simp only [List.length_cons, Nat.add_le_add_iff_right] at enough
          simp [ih encoded enough, Except.map]

theorem run_append (ops more : List (StreamOp β)) {buffer rest : List β} {delivered : List α}
    (first : f.run ops buffer = .ok (delivered, rest)) :
    f.run (ops ++ more) buffer = (f.run more rest).map fun out => (delivered ++ out.1, out.2) := by
  induction ops generalizing buffer delivered with
  | nil =>
      cases first
      rw [List.nil_append]
      cases f.run more rest <;> rfl
  | cons op ops ih =>
      cases op with
      | append chunk => exact ih first
      | take =>
          rw [List.cons_append, run]
          rw [run] at first
          match taken : f.take buffer with
          | (.error e, _) =>
              rw [taken] at first
              cases first
          | (.ok none, buffer') =>
              rw [taken] at first
              exact ih first
          | (.ok (some a), buffer') =>
              rw [taken] at first
              cases later : f.run ops buffer' with
              | error e =>
                  simp only [later, Except.map] at first
                  cases first
              | ok out =>
                  obtain ⟨tail, kept⟩ := out
                  simp only [later, Except.map, Except.ok.injEq, Prod.mk.injEq] at first
                  obtain ⟨rfl, rfl⟩ := first
                  simp only [ih later]
                  cases f.run more kept <;> rfl

/-! ### What has been taken off a stream -/

/-- The frames at the front of a buffer, decoded one after the other, and what is left behind
them. -/
inductive Decodes (f : Framing β α ε) : List α → List β → List β → Prop where
  | nil {buffer : List β} : Decodes f [] buffer buffer
  | cons {a : α} {n : Nat} {decoded : List α} {buffer rest : List β} :
      f.decode buffer = .ok (some (a, n)) → Decodes f decoded (buffer.drop n) rest →
      Decodes f (a :: decoded) buffer rest

/-- More bytes join the end of what is left. -/
theorem Decodes.append {decoded : List α} {buffer rest : List β} (h : f.Decodes decoded buffer rest)
    (more : List β) : f.Decodes decoded (buffer ++ more) (rest ++ more) := by
  induction h with
  | nil => exact .nil
  | @cons a n decoded buffer rest first _ ih =>
      have same : f.decode (buffer ++ more) = .ok (some (a, n)) := by
        rw [f.stable _ more, first]
        rw [first]
        exact fun eq => nomatch eq
      refine .cons same ?_
      rw [List.drop_append_of_le_length (f.consumed_le first)]
      exact ih

/-- A frame taken from what is left is the next one. -/
theorem Decodes.take {decoded : List α} {a : α} {buffer rest rest' : List β}
    (h : f.Decodes decoded buffer rest) (taken : f.take rest = (.ok (some a), rest')) :
    f.Decodes (decoded ++ [a]) buffer rest' := by
  induction h with
  | nil =>
      unfold Framing.take at taken
      split at taken
      · cases taken
      · cases taken
      · rename_i n decoded
        cases taken
        exact .cons decoded .nil
  | cons first _ ih => exact .cons first (ih taken)

/-- What is decoded from a front of encoded frames are the first of them. -/
theorem Decodes.of_encoded {decoded sent : List α} {buffer rest : List β} {frames : List (List β)}
    (h : f.Decodes decoded buffer rest) (encoded : List.Forall₂ f.Encodes sent frames)
    (arrived : buffer <+: frames.flatten) :
    ∃ k, decoded = sent.take k ∧ (frames.take k).flatten ++ rest = buffer := by
  induction h generalizing sent frames with
  | nil => exact ⟨0, by simp, by simp⟩
  | @cons a n decoded buffer rest first _ ih =>
      cases encoded with
      | nil =>
          rw [List.prefix_nil.mp arrived, f.decode_nil] at first
          cases first
      | @cons b bytes sent frames head encoded =>
          rcases List.prefix_or_prefix_of_prefix arrived (List.prefix_append bytes frames.flatten)
            with inFrame | whole
          · obtain ⟨missing, rfl⟩ := inFrame
            by_cases complete : missing = []
            · subst complete
              rw [List.append_nil] at head
              cases first.symm.trans head
              obtain ⟨k, front, kept⟩ := ih encoded (by simp)
              exact ⟨k + 1, by simp [front], by simpa using kept⟩
            · rw [decode_of_lt head complete] at first
              cases first
          · obtain ⟨later, rfl⟩ := whole
            cases first.symm.trans (decode_append head later)
            rw [List.drop_left] at ih
            obtain ⟨k, front, kept⟩ := ih encoded (by simpa using arrived)
            exact ⟨k + 1, by simp [front], by simp [kept]⟩

end Framing

end Commeatus.Lib
