import Commeatus.Lib.Io

/-!
Sessions with a peer that may do anything.

The lists say what the next calls of `read`, `write` and `flush` give: chunks
of any size, errors, or the end of the stream. `read_exact` and `write_all`
call them until the buffer is done, and go on after an interruption. The
session records which bytes went out and which were consumed, also by a call
that failed halfway.
-/

namespace Commeatus.Lib

/-- `number` tells the sessions of one connector apart. -/
structure Session where
  number : Nat
  reads : List (Except IoError Bytes)
  writes : List (Except IoError Nat)
  flushes : List (Except IoError Unit)
  written : Bytes := []
  consumed : Bytes := []

namespace Session

def writeZero : IoError := ⟨.writeZero, "failed to write whole buffer"⟩

def brokenPipe : IoError := ⟨.brokenPipe, "broken pipe"⟩

/-- The loop of `read_exact` over the reads to come: the result, the reads that are left, and the
bytes consumed. A read at the end of the stream gives nothing. -/
def fillBuffer : List (Except IoError Bytes) → Nat → Bytes →
    Except IoError Bytes × List (Except IoError Bytes) × Bytes
  | [], need, got =>
      if need = 0 then (.ok got, [], got) else (.error ByteStream.unexpectedEof, [], got)
  | outcome :: reads, need, got =>
      if need = 0 then (.ok got, outcome :: reads, got)
      else
        match outcome with
        | .error e =>
            if e.kind = .interrupted then fillBuffer reads need got else (.error e, reads, got)
        | .ok chunk =>
            if chunk.isEmpty then (.error ByteStream.unexpectedEof, reads, got)
            else if chunk.length ≤ need then fillBuffer reads (need - chunk.length) (got ++ chunk)
            else (.ok (got ++ chunk.take need), .ok (chunk.drop need) :: reads,
              got ++ chunk.take need)

/-- `Read::read_exact`. -/
def readExact (count : Nat) : IoM Session Bytes := fun s =>
  let (result, reads, got) := fillBuffer s.reads count []
  (result, { s with reads, consumed := s.consumed ++ got })

/-- The loop of `write_all` over the writes to come: the result, the writes that are left, and the
bytes that went out. -/
def drainBuffer : List (Except IoError Nat) → Bytes → Bytes →
    Except IoError Unit × List (Except IoError Nat) × Bytes
  | [], rest, out => if rest.isEmpty then (.ok (), [], out) else (.error brokenPipe, [], out)
  | outcome :: writes, rest, out =>
      if rest.isEmpty then (.ok (), outcome :: writes, out)
      else
        match outcome with
        | .error e =>
            if e.kind = .interrupted then drainBuffer writes rest out else (.error e, writes, out)
        | .ok count =>
            if count = 0 then (.error writeZero, writes, out)
            else drainBuffer writes (rest.drop count) (out ++ rest.take count)

/-- `Write::write_all`. -/
def writeAll (bytes : Bytes) : IoM Session Unit := fun s =>
  let (result, writes, out) := drainBuffer s.writes bytes []
  (result, { s with writes, written := s.written ++ out })

def flush : IoM Session Unit := fun s =>
  match s.flushes with
  | [] => (.ok (), s)
  | outcome :: flushes => (outcome, { s with flushes })

/-- What a full buffer was filled with, and only that, was consumed. -/
theorem fillBuffer_eq_ok {reads reads' : List (Except IoError Bytes)} {need : Nat}
    {got bytes consumed : Bytes}
    (filled : fillBuffer reads need got = (.ok bytes, reads', consumed)) :
    consumed = bytes ∧ bytes.length = got.length + need := by
  induction reads generalizing need got with
  | nil =>
      unfold fillBuffer at filled
      split at filled
      · cases filled
        exact ⟨rfl, by omega⟩
      · cases filled
  | cons outcome reads ih =>
      unfold fillBuffer at filled
      split at filled
      · cases filled
        exact ⟨rfl, by omega⟩
      · cases outcome with
        | error e =>
            dsimp only at filled
            split at filled
            · exact ih filled
            · cases filled
        | ok chunk =>
            dsimp only at filled
            split at filled
            · cases filled
            · split at filled
              · obtain ⟨same, length⟩ := ih filled
                rw [List.length_append] at length
                exact ⟨same, by omega⟩
              · cases filled
                refine ⟨rfl, ?_⟩
                rw [List.length_append, List.length_take]
                omega

/-- A buffer that was written was written whole. -/
theorem drainBuffer_eq_ok {writes writes' : List (Except IoError Nat)}
    {rest out out' : Bytes} {u : Unit}
    (drained : drainBuffer writes rest out = (.ok u, writes', out')) : out' = out ++ rest := by
  induction writes generalizing rest out with
  | nil =>
      unfold drainBuffer at drained
      split at drained
      · rename_i empty
        cases drained
        rw [List.isEmpty_iff.mp empty, List.append_nil]
      · cases drained
  | cons outcome writes ih =>
      unfold drainBuffer at drained
      split at drained
      · rename_i empty
        cases drained
        rw [List.isEmpty_iff.mp empty, List.append_nil]
      · cases outcome with
        | error e =>
            dsimp only at drained
            split at drained
            · exact ih drained
            · cases drained
        | ok count =>
            dsimp only at drained
            split at drained
            · cases drained
            · rw [ih drained, List.append_assoc, List.take_append_drop]

theorem readExact_eq_ok {count : Nat} {s s' : Session} {bytes : Bytes}
    (read : readExact count s = (.ok bytes, s')) :
    bytes.length = count ∧ s'.number = s.number ∧ s'.written = s.written ∧
    s'.consumed = s.consumed ++ bytes := by
  unfold readExact at read
  match filled : fillBuffer s.reads count [] with
  | (result, reads, got) =>
      rw [filled] at read
      cases read
      obtain ⟨rfl, length⟩ := fillBuffer_eq_ok filled
      exact ⟨by simpa using length, rfl, rfl, rfl⟩

theorem writeAll_eq_ok {bytes : Bytes} {s s' : Session} {u : Unit}
    (wrote : writeAll bytes s = (.ok u, s')) :
    s'.number = s.number ∧ s'.written = s.written ++ bytes ∧ s'.consumed = s.consumed := by
  unfold writeAll at wrote
  match drained : drainBuffer s.writes bytes [] with
  | (result, writes, out) =>
      rw [drained] at wrote
      cases wrote
      rw [drainBuffer_eq_ok drained]
      exact ⟨rfl, rfl, rfl⟩

theorem flush_eq_ok {s s' : Session} {u : Unit} (flushed : flush s = (.ok u, s')) :
    s'.number = s.number ∧ s'.written = s.written ∧ s'.consumed = s.consumed := by
  unfold flush at flushed
  split at flushed <;> cases flushed <;> exact ⟨rfl, rfl, rfl⟩

/-! ### A session keeps its number -/

theorem readExact_number (count : Nat) : IoM.Keeps number (readExact count) := fun _ => rfl

theorem writeAll_number (bytes : Bytes) : IoM.Keeps number (writeAll bytes) := fun _ => rfl

theorem flush_number : IoM.Keeps number flush := by
  intro s
  unfold flush
  split <;> rfl

end Session

end Commeatus.Lib
