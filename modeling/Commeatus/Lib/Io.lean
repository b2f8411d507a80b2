import Commeatus.Lib.Text

/-!
Fallible I/O in state-passing form.

`IoM σ α` is a computation on a state `σ` that returns a value or an I/O error;
the state survives an error, so what was written before a failure stays
visible. `ByteStream` is the state of a blocking connection: the bytes the peer
still sends, how the kernel cuts them into reads, how the stream ends, and
everything written to it so far.
-/

namespace Commeatus.Lib

inductive ErrorKind where
  | notFound | permissionDenied | connectionRefused | connectionReset | notConnected | brokenPipe
  | addrNotAvailable | alreadyExists | wouldBlock | invalidInput | invalidData | timedOut
  | writeZero
  | interrupted | unsupported | unexpectedEof | outOfMemory | quotaExceeded | other
  deriving DecidableEq, Repr

structure IoError where
  kind : ErrorKind
  message : String
  deriving DecidableEq, Repr

def usizeMax : Nat := 2 ^ 64 - 1

/-- A fallible computation over the state `σ`. -/
def IoM (σ α : Type) : Type := σ → Except IoError α × σ

namespace IoM

variable {σ α β : Type}

instance : Monad (IoM σ) where
  pure a := fun s => (.ok a, s)
  bind x f := fun s =>
    match x s with
    | (.ok a, s) => f a s
    | (.error e, s) => (.error e, s)

/-- Leave with an error. -/
def fail (e : IoError) : IoM σ α := fun s => (.error e, s)

/-- Leave with the error of a pure result, if it is one. -/
def lift : Except IoError α → IoM σ α
  | .ok a => pure a
  | .error e => fail e

@[simp] theorem pure_apply (a : α) (s : σ) : (pure a : IoM σ α) s = (.ok a, s) := rfl

@[simp] theorem fail_apply (e : IoError) (s : σ) : (fail e : IoM σ α) s = (.error e, s) := rfl

@[simp] theorem lift_ok (a : α) (s : σ) : (lift (.ok a) : IoM σ α) s = (.ok a, s) := rfl

@[simp] theorem lift_error (e : IoError) (s : σ) :
    (lift (.error e) : IoM σ α) s = (.error e, s) := rfl

theorem bind_of_ok {x : IoM σ α} {f : α → IoM σ β} {s s' : σ} {a : α} (h : x s = (.ok a, s')) :
    (x >>= f) s = f a s' := by
  show (match x s with | (.ok a, s) => f a s | (.error e, s) => (.error e, s)) = _
  rw [h]

theorem bind_of_error {x : IoM σ α} {f : α → IoM σ β} {s s' : σ} {e : IoError}
    (h : x s = (.error e, s')) : (x >>= f) s = (.error e, s') := by
  show (match x s with | (.ok a, s) => f a s | (.error e, s) => (.error e, s)) = _
  rw [h]

/-- A sequence succeeds exactly when both parts do. -/
theorem bind_eq_ok {x : IoM σ α} {f : α → IoM σ β} {s s'' : σ} {b : β} :
    (x >>= f) s = (.ok b, s'') ↔ ∃ a s', x s = (.ok a, s') ∧ f a s' = (.ok b, s'') := by
  constructor
  · intro h
    match hx : x s with
    | (.ok a, s') => exact ⟨a, s', rfl, by rw [bind_of_ok hx] at h; exact h⟩
    | (.error e, s') =>
        rw [bind_of_error hx] at h
        cases h
  · rintro ⟨a, s', hx, hf⟩
    rw [bind_of_ok hx, hf]

/-- The computation leaves what `observe` sees of the state alone. -/
def Keeps {τ : Type} (observe : σ → τ) (x : IoM σ α) : Prop := ∀ s, observe (x s).2 = observe s

theorem Keeps.bind {τ : Type} {observe : σ → τ} {x : IoM σ α} {f : α → IoM σ β}
    (first : Keeps observe x) (next : ∀ a, Keeps observe (f a)) : Keeps observe (x >>= f) := by
  intro s
  have kept := first s
  match hx : x s with
  | (.ok a, s') =>
      rw [hx] at kept
      rw [bind_of_ok hx, next a s', kept]
  | (.error e, s') =>
      rw [hx] at kept
      rw [bind_of_error hx, kept]

/-- The computation beside a part of the state that it does not see. -/
def beside {τ : Type} (x : IoM σ α) : IoM (σ × τ) α := fun s => ((x s.1).1, ((x s.1).2, s.2))

/-- The computation beside a record, to which what it comes to is added. -/
def noted {τ : Type} (x : IoM σ α) (note : Except IoError α → τ → τ) : IoM (σ × τ) α := fun s =>
  ((x s.1).1, ((x s.1).2, note (x s.1).1 s.2))

theorem of_noted {τ : Type} {x : IoM σ α} {note : Except IoError α → τ → τ} {s s' : σ × τ}
    {result : Except IoError α} (answer : x.noted note s = (result, s')) :
    x s.1 = (result, s'.1) ∧ s'.2 = note result s.2 := by
  cases answer
  exact ⟨rfl, rfl⟩

theorem Keeps.pure {τ : Type} {observe : σ → τ} (a : α) :
    Keeps observe (pure a : IoM σ α) := fun _ => rfl

/-- What both parts of a sequence preserve, the sequence preserves. -/
theorem preserves_bind {I : σ → Prop} {x : IoM σ α} {f : α → IoM σ β} (first : ∀ s, I s → I (x s).2)
    (next : ∀ a s, I s → I (f a s).2) : ∀ s, I s → I ((x >>= f) s).2 := by
  intro s start
  have kept := first s start
  match hx : x s with
  | (.ok a, s') =>
      rw [hx] at kept
      rw [bind_of_ok hx]
      exact next a s' kept
  | (.error e, s') =>
      rw [hx] at kept
      rw [bind_of_error hx]
      exact kept

theorem Keeps.lift {τ : Type} (observe : σ → τ) (result : Except IoError α) :
    Keeps observe (lift result : IoM σ α) := by
  intro s
  cases result <;> rfl

end IoM

/-! ### Blocking byte streams -/

/-- A connection as one party sees it. `cuts` says how many bytes each `read`
returns at most; every segmentation of the incoming bytes is some list of
cuts. `ending` is what follows the last byte: a clean end or an error. -/
structure ByteStream where
  incoming : Bytes
  cuts : List Nat := []
  ending : Option IoError := none
  outgoing : Bytes := []
  deriving DecidableEq, Repr

namespace ByteStream

def unexpectedEof : IoError := ⟨.unexpectedEof, "failed to fill whole buffer"⟩

/-- `Read::read` into a buffer of `limit` bytes: at least one byte unless the
stream is at its end, where the result is empty or the final error. -/
def read (limit : Nat) : IoM ByteStream Bytes := fun s =>
  match s.incoming, s.ending with
  | [], some e => (.error e, s)
  | [], none => (.ok [], s)
  | bytes, _ =>
      let count := min limit (max 1 (s.cuts.headD limit))
      (.ok (bytes.take count), { s with incoming := bytes.drop count, cuts := s.cuts.tail })

/-- `Read::read_exact`: it reads on until the buffer is full, so segmentation
does not show. -/
def readExact (count : Nat) : IoM ByteStream Bytes := fun s =>
  if count ≤ s.incoming.length then
    (.ok (s.incoming.take count), { s with incoming := s.incoming.drop count })
  else (.error (s.ending.getD unexpectedEof), { s with incoming := [] })

def writeAll (bytes : Bytes) : IoM ByteStream Unit := fun s =>
  (.ok (), { s with outgoing := s.outgoing ++ bytes })

/-- While bytes are pending, a read delivers some of them. -/
theorem read_of_pending (limit : Nat) {s : ByteStream} (pending : s.incoming ≠ [])
    (positive : 0 < limit) :
    ∃ b chunk s', read limit s = (.ok (b :: chunk), s') ∧
      s.incoming = b :: chunk ++ s'.incoming := by
  obtain ⟨b, rest, incoming⟩ := List.exists_cons_of_ne_nil pending
  obtain ⟨count, taken⟩ : ∃ count, min limit (max 1 (s.cuts.headD limit)) = count + 1 :=
    ⟨min limit (max 1 (s.cuts.headD limit)) - 1, by omega⟩
  refine ⟨b, rest.take count, { s with incoming := rest.drop count, cuts := s.cuts.tail }, ?_, ?_⟩
  · simp only [read, incoming, taken, List.take_succ_cons, List.drop_succ_cons]
  · simp [incoming]

theorem read_ending {limit : Nat} {s s' : ByteStream} {result : Except IoError Bytes}
    (got : read limit s = (result, s')) :
    s'.ending = s.ending := by
  unfold read at got
  split at got <;> cases got <;> rfl

/-- What a read delivers was pending. -/
theorem read_eq_ok {limit : Nat} {s s' : ByteStream} {bytes : Bytes}
    (got : read limit s = (.ok bytes, s')) :
    s.incoming = bytes ++ s'.incoming := by
  unfold read at got
  split at got
  · cases got
  · cases got
    rw [List.nil_append]
  · cases got
    exact (List.take_append_drop _ _).symm

/-- A chunk that was read is missing from what still comes. -/
theorem length_incoming_lt {s s' : ByteStream} {b : UInt8} {chunk : Bytes}
    (rest : s.incoming = b :: chunk ++ s'.incoming) : s'.incoming.length < s.incoming.length := by
  rw [rest, List.length_append, List.length_cons]
  omega

/-- `io::copy`: what one stream still delivers is written to the other, until the first ends. -/
def copy (reader writer : ByteStream) : Except IoError Unit × ByteStream × ByteStream :=
  match _ : read 8192 reader with
  | (.error e, reader') => (.error e, reader', writer)
  | (.ok [], reader') => (.ok (), reader', writer)
  | (.ok (b :: chunk), reader') =>
      copy reader' { writer with outgoing := writer.outgoing ++ b :: chunk }
termination_by reader.incoming.length
decreasing_by
  rename_i got
  exact length_incoming_lt (read_eq_ok got)

theorem read_done (limit : Nat) {s : ByteStream} (done : s.incoming = []) :
    read limit s = (s.ending.elim (.ok []) .error, s) := by
  unfold read
  rw [done]
  cases ending : s.ending <;> rfl

/-- A copy writes all that comes, in its order, and takes the end of the stream for its own. -/
theorem copy_eq (reader writer : ByteStream) : ∃ reader', reader'.incoming = [] ∧
    copy reader writer = (reader.ending.elim (.ok ()) .error, reader',
      { writer with outgoing := writer.outgoing ++ reader.incoming }) := by
  induction unread :
      reader.incoming.length using Nat.strong_induction_on generalizing reader writer with
  | _ n ih =>
      rw [copy.eq_def]
      by_cases done : reader.incoming = []
      · refine ⟨reader, done, ?_⟩
        rw [done, List.append_nil]
        have last := read_done 8192 done
        split
        · rename_i e reader' got
          rw [last] at got
          cases ending : reader.ending with
          | none =>
              rw [ending] at got
              cases got
          | some e' =>
              rw [ending] at got
              cases got
              rfl
        · rename_i reader' got
          rw [last] at got
          cases ending : reader.ending with
          | none =>
              rw [ending] at got
              cases got
              rfl
          | some e' =>
              rw [ending] at got
              cases got
        · rename_i b chunk reader' got
          have no := read_eq_ok got
          rw [done] at no
          cases no
      · obtain ⟨b, chunk, s', got, rest⟩ := read_of_pending 8192 done (by decide)
        have ending : s'.ending = reader.ending := read_ending got
        have fewer : s'.incoming.length < n := unread ▸ length_incoming_lt rest
        obtain ⟨reader', empty, copied⟩ :=
          ih _ fewer s' { writer with outgoing := writer.outgoing ++ b :: chunk } rfl
        refine ⟨reader', empty, ?_⟩
        split
        · rename_i other
          rw [got] at other
          cases other
        · rename_i other
          rw [got] at other
          cases other
        · rename_i other
          rw [got] at other
          cases other
          rw [copied, ending, rest, List.append_assoc]

theorem length_read {limit : Nat} {s s' : ByteStream} {bytes : Bytes}
    (got : read limit s = (.ok bytes, s')) :
    bytes.length ≤ limit := by
  unfold read at got
  split at got
  · cases got
  · cases got
    exact Nat.zero_le _
  · cases got
    rw [List.length_take]
    omega

theorem readExact_eq_ok {count : Nat} {s s' : ByteStream} {bytes : Bytes}
    (h : readExact count s = (.ok bytes, s')) :
    count ≤ s.incoming.length ∧ bytes = s.incoming.take count ∧
      s' = { s with incoming := s.incoming.drop count } := by
  unfold readExact at h
  split at h
  · cases h
    exact ⟨by assumption, rfl, rfl⟩
  · cases h

/-- What an exact read delivers is what stands first, and it leaves the rest. -/
theorem readExact_split {count : Nat} {s s' : ByteStream} {bytes : Bytes}
    (h : readExact count s = (.ok bytes, s')) :
    s.incoming = bytes ++ s'.incoming ∧ bytes.length = count := by
  obtain ⟨enough, rfl, rfl⟩ := readExact_eq_ok h
  exact ⟨(List.take_append_drop _ _).symm, List.length_take_of_le enough⟩

theorem readExact_outgoing (count : Nat) : IoM.Keeps outgoing (readExact count) := by
  intro s
  unfold readExact
  split <;> rfl

theorem readExact_append {bytes : Bytes} {count : Nat} (h : bytes.length = count) (s : ByteStream)
    (rest : Bytes) (hs : s.incoming = bytes ++ rest) :
    readExact count s = (.ok bytes, { s with incoming := rest }) := by
  subst h
  simp [readExact, hs]

end ByteStream

end Commeatus.Lib
