import Commeatus.Lib.Io

/-!
A nonblocking stream socket on an edge-triggered poll registry.

The registry reports an event for a source after a call that registers it while
it is ready, or after activity on the socket since the last event; readiness
that was there before is not reported again. Room for sending that comes free is
reported to a socket that has been refused some since the last such report: a
write was cut short or blocked, or a registration asked for room and found none.
`PolledStream` is the socket with the state the registry keeps for it. What the
peer and the kernel do is a schedule: every call on the socket first takes the
next `KernelStep` of it, so every interleaving of arrivals with the program's
calls is some schedule.
-/

namespace Commeatus.Lib

@[ext] structure Interest where
  readable : Bool
  writable : Bool
  deriving DecidableEq

/-- A call on the poll registry about one socket. -/
inductive RegistryCall where
  | register (interest : Interest)
  | reregister (interest : Interest)
  | deregister
  deriving DecidableEq

/-- What an event says of its source. -/
structure Readiness where
  readable : Bool := false
  writable : Bool := false
  error : Bool := false
  readClosed : Bool := false
  writeClosed : Bool := false
  deriving DecidableEq

namespace Readiness

def closing (r : Readiness) : Bool := r.error || r.readClosed || r.writeClosed

def any (r : Readiness) : Bool := r.readable || r.writable || r.closing

end Readiness

/-- An event of a poll: the token of its source and what it says. -/
structure PollEvent where
  token : Nat
  readiness : Readiness
  deriving DecidableEq

/-- What happens on a connection by itself: bytes of the peer arrive, its end of stream arrives
behind the last of them, send space comes free, or the peer resets the connection. -/
inductive Activity where
  | arrive (count : Nat)
  | fin
  | acked (count : Nat)
  | reset

/-- An error of a call; a call that finds nothing ready is not one. -/
structure Fault where
  error : IoError
  hard : error.kind ≠ .wouldBlock

/-- The kernel's part in one call: what happened before it, whether it fails, and how many bytes
it moves at most. -/
structure KernelStep where
  activity : List Activity := []
  fault : Option Fault := none
  moves : Option Nat := none

/-- How much of `limit` a read or write moves; never nothing. -/
def KernelStep.count (step : KernelStep) (limit : Nat) : Nat :=
  match step.moves with
  | none => limit
  | some n => min limit (max 1 n)

theorem KernelStep.count_pos (step : KernelStep) {limit : Nat} (positive : 0 < limit) :
    0 < step.count limit := by
  unfold count
  split
  · exact positive
  · exact lt_min positive (Nat.lt_of_lt_of_le Nat.one_pos (Nat.le_max_left 1 _))

/-- A connected socket. `incoming` is what the peer wrote and has not arrived, `unread` what has
arrived and was not read, `space` the room for sending; `noSpace` says that the program has been
refused room, so that the next to come free is reported. The registry holds the interest and
whether an event is still to be delivered. -/
structure PolledStream where
  incoming : Bytes
  unread : Bytes := []
  fin : Bool := false
  broken : Bool := false
  space : Nat := 0
  noSpace : Bool := false
  outgoing : Bytes := []
  shut : Bool := false
  interest : Option Interest := none
  outstanding : Bool := false
  future : List KernelStep := []
  /-- The end of the stream arrives last. -/
  finLast : fin = true → incoming = [] := by simp

namespace PolledStream

def wouldBlock : IoError := ⟨.wouldBlock, "operation would block"⟩

def connectionReset : IoError := ⟨.connectionReset, "connection reset by peer"⟩

def brokenPipe : IoError := ⟨.brokenPipe, "broken pipe"⟩

/-- The connection is closed in both directions. -/
def hup (s : PolledStream) : Bool := s.broken || (s.fin && s.shut)

/-- The flags of an event: the end of the peer's stream shows as soon as it has arrived, also
while bytes before it are unread. -/
def readiness (s : PolledStream) (interest : Interest) : Readiness where
  readable := interest.readable && (!s.unread.isEmpty || s.fin || s.broken)
  writable := interest.writable && (decide (0 < s.space) || s.shut || s.broken)
  error := s.broken
  readClosed := s.hup || (interest.readable && s.fin)
  writeClosed := s.hup

/-- Activity is reported to a registration that asks for it. -/
def notify (asks : Interest → Bool) (s : PolledStream) : PolledStream :=
  { s with outstanding := s.outstanding || s.interest.any asks }

def occur (s : PolledStream) : Activity → PolledStream
  | .arrive count =>
      if s.broken || (s.incoming.take count).isEmpty then s
      else
        notify (·.readable)
          { s with
            unread := s.unread ++ s.incoming.take count
            incoming := s.incoming.drop count
            finLast := fun ended => by rw [s.finLast ended, List.drop_nil] }
  | .fin =>
      if last : s.incoming = [] then
        notify (fun i => i.readable || s.shut) { s with fin := true, finLast := fun _ => last }
      else s
  | .acked count =>
      if count = 0 then s
      else if s.noSpace then
        notify (·.writable) { s with space := s.space + count, noSpace := false }
      else { s with space := s.space + count }
  | .reset => notify (fun _ => true) { s with broken := true }

/-- The next step of the schedule. Past its end nothing more happens. -/
def advance (s : PolledStream) : KernelStep × PolledStream :=
  match s.future with
  | [] => ({}, s)
  | step :: future => (step, step.activity.foldl occur { s with future })

def read (limit : Nat) : IoM PolledStream Bytes := fun s =>
  let step := s.advance.1
  let s := s.advance.2
  match step.fault with
  | some fault => (.error fault.error, s)
  | none =>
      if s.unread.isEmpty then
        if s.broken then (.error connectionReset, s)
        else if s.fin then (.ok [], s)
        else (.error wouldBlock, s)
      else
        (.ok (s.unread.take (step.count limit)),
          { s with unread := s.unread.drop (step.count limit) })

def write (bytes : Bytes) : IoM PolledStream Nat := fun s =>
  let step := s.advance.1
  let s := s.advance.2
  match step.fault with
  | some fault => (.error fault.error, s)
  | none =>
      if s.shut || s.broken then (.error brokenPipe, s)
      else if s.space = 0 then (.error wouldBlock, { s with noSpace := true })
      else
        let count := min (step.count bytes.length) s.space
        (.ok count,
          { s with
            outgoing := s.outgoing ++ bytes.take count
            space := s.space - count
            noSpace := s.noSpace || decide (count = s.space ∧ count < bytes.length) })

/-- `shutdown(Shutdown::Write)`. -/
def shutdownWrite : IoM PolledStream Unit := fun s =>
  let step := s.advance.1
  let s := s.advance.2
  match step.fault with
  | some fault => (.error fault.error, s)
  | none => (.ok (), notify (fun _ => s.fin) { s with shut := true })

/-- A registration that finds the source ready has an event to deliver. -/
def registry (call : RegistryCall) : IoM PolledStream Unit := fun s =>
  let step := s.advance.1
  let s := s.advance.2
  match step.fault with
  | some fault => (.error fault.error, s)
  | none =>
      match call with
      | .register interest | .reregister interest =>
          (.ok (),
            { s with
              interest := some interest
              outstanding := (s.readiness interest).any
              noSpace := s.noSpace || (interest.writable && decide (s.space = 0)) })
      | .deregister => (.ok (), { s with interest := none, outstanding := false })

/-- The event for this socket that a `poll` returns, if there is one. It is delivered once. -/
def poll : IoM PolledStream (Option Readiness) := fun s =>
  let step := s.advance.1
  let s := s.advance.2
  match step.fault with
  | some fault => (.error fault.error, s)
  | none =>
      match s.outstanding, s.interest with
      | true, some interest =>
          let event := s.readiness interest
          (.ok (if event.any then some event else none), { s with outstanding := false })
      | _, _ => (.ok none, s)

/-! ### What the kernel's part can change -/

/-- Room for sending is reported, or will be as soon as some comes free. -/
structure RoomDue (s : PolledStream) : Prop where
  now : 0 < s.space → s.outstanding = true
  later : s.space = 0 → s.noSpace = true

/-- The socket some time later, with no call made on it: bytes have only moved from the peer to the
socket, and as long as no event is due, nothing has arrived that a registration asks for. -/
structure Later (s s' : PolledStream) : Prop where
  interest : s'.interest = s.interest
  stream : s'.unread ++ s'.incoming = s.unread ++ s.incoming
  fin : s.fin = true → s'.fin = true
  quiet : s'.outstanding = false → s.outstanding = false ∧
    (s.interest.any (·.readable) = true → s'.unread = s.unread)
  room : s.interest.any (·.writable) = true → RoomDue s → RoomDue s'

theorem Later.refl (s : PolledStream) : Later s s :=
  ⟨rfl, rfl, id, fun quiet => ⟨quiet, fun _ => rfl⟩, fun _ => id⟩

theorem Later.trans {s₁ s₂ s₃ : PolledStream} (first : Later s₁ s₂) (next : Later s₂ s₃) :
    Later s₁ s₃ := by
  refine ⟨next.interest.trans first.interest, next.stream.trans first.stream,
    fun ended => next.fin (first.fin ended), fun quiet => ?_, fun asks due => ?_⟩
  · obtain ⟨quiet₂, unread₂⟩ := next.quiet quiet
    obtain ⟨quiet₁, unread₁⟩ := first.quiet quiet₂
    rw [first.interest] at unread₂
    exact ⟨quiet₁, fun asks => (unread₂ asks).trans (unread₁ asks)⟩
  · have asks₂ := asks
    rw [← first.interest] at asks₂
    exact next.room asks₂ (first.room asks due)

/-- More events are due and the room is the same. -/
theorem RoomDue.mono {s s' : PolledStream} (due : RoomDue s) (space : s'.space = s.space)
    (noSpace : s'.noSpace = s.noSpace) (kept : s.outstanding = true → s'.outstanding = true) :
    RoomDue s' := by
  refine ⟨fun some => kept (due.now ?_), fun none => noSpace.trans (due.later ?_)⟩
  · rw [← space]
    exact some
  · rw [← space]
    exact none

theorem notify_outstanding {asks : Interest → Bool} {s : PolledStream}
    (due : s.outstanding = true) :
    (notify asks s).outstanding = true := by
  simp [notify, due]

theorem occur_later (s : PolledStream) (activity : Activity) : Later s (s.occur activity) := by
  cases activity with
  | arrive count =>
      simp only [occur]
      split
      · exact .refl s
      · refine ⟨rfl, by simp [notify], id, fun quiet => ?_, fun _ due => ?_⟩
        · obtain ⟨before, asks⟩ := Bool.or_eq_false_iff.mp quiet
          exact ⟨before, fun readable => absurd (readable.symm.trans asks) (by decide)⟩
        · exact due.mono rfl rfl notify_outstanding
  | fin =>
      simp only [occur]
      split
      · refine ⟨rfl, rfl, fun _ => rfl, fun quiet => ?_, fun _ due => ?_⟩
        · exact ⟨(Bool.or_eq_false_iff.mp quiet).1, fun _ => rfl⟩
        · exact due.mono rfl rfl notify_outstanding
      · exact .refl s
  | acked count =>
      simp only [occur]
      split
      · exact .refl s
      rename_i some
      split
      · refine ⟨rfl, rfl, id, fun quiet => ?_, fun asks _ => ⟨fun _ => ?_, fun none => ?_⟩⟩
        · exact ⟨(Bool.or_eq_false_iff.mp quiet).1, fun _ => rfl⟩
        · show (s.outstanding || s.interest.any (·.writable)) = true
          rw [asks, Bool.or_true]
        · exact absurd (Nat.eq_zero_of_add_eq_zero none).2 some
      · -- Nobody was refused room, so there was some, and it was reported already.
        rename_i unasked
        refine ⟨rfl, rfl, id, fun quiet => ⟨quiet, fun _ => rfl⟩, fun _ due => ?_⟩
        have room : 0 < s.space := by
          refine Nat.pos_of_ne_zero fun none => unasked (due.later none)
        exact ⟨fun _ => due.now room, fun none => absurd (Nat.eq_zero_of_add_eq_zero none).2 some⟩
  | reset =>
      refine ⟨rfl, rfl, id, fun quiet => ?_, fun _ due => due.mono rfl rfl notify_outstanding⟩
      exact ⟨(Bool.or_eq_false_iff.mp quiet).1, fun _ => rfl⟩

theorem advance_later (s : PolledStream) : Later s s.advance.2 := by
  unfold advance
  split
  · exact .refl s
  · rename_i step future _
    have steps : ∀ (activity : List Activity) (s : PolledStream),
        Later s (activity.foldl occur s) := by
      intro activity
      induction activity with
      | nil => exact .refl
      | cons first rest ih => exact fun s => (occur_later s first).trans (ih _)
    have start : Later s { s with future } :=
      ⟨rfl, rfl, id, fun quiet => ⟨quiet, fun _ => rfl⟩, fun _ due => due.mono rfl rfl id⟩
    exact start.trans (steps step.activity _)

/-- A read fails and leaves the socket, or finds the end of the stream, or takes some bytes. -/
theorem read_cases {limit : Nat} (positive : 0 < limit) (s : PolledStream) : ∃ c, Later s c ∧
    ((∃ e, read limit s = (.error e, c)) ∨
      (read limit s = (.ok [], c) ∧ c.fin = true ∧ c.unread = []) ∨
      ∃ n, c.unread.take n ≠ [] ∧
        read limit s = (.ok (c.unread.take n), { c with unread := c.unread.drop n })) := by
  refine ⟨s.advance.2, advance_later s, ?_⟩
  unfold read
  dsimp only
  split
  · exact .inl ⟨_, rfl⟩
  split
  · rename_i empty
    split
    · exact .inl ⟨_, rfl⟩
    split
    · rename_i ended
      exact .inr (.inl ⟨rfl, ended, List.isEmpty_iff.mp empty⟩)
    · exact .inl ⟨_, rfl⟩
  · rename_i pending
    refine .inr (.inr ⟨_, ?_, rfl⟩)
    intro none
    rcases List.take_eq_nil_iff.mp none with zero | empty
    · exact absurd zero (Nat.ne_of_gt (KernelStep.count_pos _ positive))
    · exact pending (List.isEmpty_iff.mpr empty)

/-- A write fails and leaves the socket, or is refused for want of space, or takes some bytes. -/
theorem write_cases (bytes : Bytes) (s : PolledStream) : ∃ c, Later s c ∧
    ((∃ e, write bytes s = (.error e, c) ∧ e.kind ≠ .wouldBlock) ∨
      (c.space = 0 ∧ write bytes s = (.error wouldBlock, { c with noSpace := true })) ∨
      ∃ n noSpace, 0 < c.space ∧ write bytes s =
        (.ok n,
          { c with outgoing := c.outgoing ++ bytes.take n, space := c.space - n, noSpace })) := by
  refine ⟨s.advance.2, advance_later s, ?_⟩
  unfold write
  dsimp only
  split
  · rename_i fault _
    exact .inl ⟨_, rfl, fault.hard⟩
  split
  · exact .inl ⟨_, rfl, nofun⟩
  split
  · rename_i full
    exact .inr (.inl ⟨full, rfl⟩)
  · rename_i some
    exact .inr (.inr ⟨_, _, Nat.pos_of_ne_zero some, rfl⟩)

/-- A registration asks for what it names; what is ready then has an event due, and room that is
not there will have one. -/
theorem registry_register {call : RegistryCall} {interest : Interest} {s s' : PolledStream}
    (registers : call = .register interest ∨ call = .reregister interest)
    (registered : registry call s = (.ok (), s')) :
    s'.interest = some interest ∧ s'.outstanding = (s'.readiness interest).any ∧
      (interest.writable = true → s'.space = 0 → s'.noSpace = true) := by
  unfold registry at registered
  dsimp only at registered
  split at registered
  · cases registered
  · rcases registers with rfl | rfl
    all_goals
      cases registered
      refine ⟨rfl, rfl, fun asks none => ?_⟩
      simp [asks, show s.advance.2.space = 0 from none]

/-- A poll delivers the event that is due, with the readiness of that moment, or finds none due. -/
theorem poll_cases (s : PolledStream) : ∃ c, Later s c ∧
    ((∃ e, poll s = (.error e, c)) ∨
      (∃ interest, c.outstanding = true ∧ c.interest = some interest ∧
        poll s =
          (.ok (if (c.readiness interest).any then some (c.readiness interest) else none),
            { c with outstanding := false })) ∨
      ((c.outstanding = true → c.interest = none) ∧ poll s = (.ok none, c))) := by
  refine ⟨s.advance.2, advance_later s, ?_⟩
  unfold poll
  dsimp only
  split
  · exact .inl ⟨_, rfl⟩
  split
  · rename_i interest due asks
    exact .inr (.inl ⟨interest, due, asks, rfl⟩)
  · rename_i none
    refine .inr (.inr ⟨fun due => ?_, rfl⟩)
    match asks : s.advance.2.interest with
    | some interest => exact absurd asks (none interest due)
    | Option.none => rfl

/-- While no event is due, nothing has arrived that a registration asks for. -/
structure Settles (s s' : PolledStream) : Prop where
  interest : s'.interest = s.interest
  quiet : s'.outstanding = false → s.outstanding = false ∧
    (s.interest.any (·.readable) = true → s'.unread ≠ [] → s.unread ≠ [])

theorem Settles.refl (s : PolledStream) : Settles s s := ⟨rfl, fun quiet => ⟨quiet, fun _ => id⟩⟩

theorem Settles.trans {s₁ s₂ s₃ : PolledStream} (first : Settles s₁ s₂) (next : Settles s₂ s₃) :
    Settles s₁ s₃ := by
  refine ⟨next.interest.trans first.interest, fun quiet => ?_⟩
  obtain ⟨quiet₂, unread₂⟩ := next.quiet quiet
  obtain ⟨quiet₁, unread₁⟩ := first.quiet quiet₂
  rw [first.interest] at unread₂
  exact ⟨quiet₁, fun asks left => unread₁ asks (unread₂ asks left)⟩

theorem Later.settles {s s' : PolledStream} (later : Later s s') : Settles s s' := by
  refine ⟨later.interest, fun quiet => ?_⟩
  obtain ⟨before, unread⟩ := later.quiet quiet
  refine ⟨before, fun asks left => ?_⟩
  rw [← unread asks]
  exact left

theorem read_settles {limit : Nat} (positive : 0 < limit) (s : PolledStream) :
    Settles s (read limit s).2 := by
  obtain ⟨c, later, ⟨e, failed⟩ | ⟨ended, -, -⟩ | ⟨n, -, taken⟩⟩ := read_cases positive s
  · rw [failed]
    exact later.settles
  · rw [ended]
    exact later.settles
  · rw [taken]
    refine later.settles.trans ⟨rfl, fun quiet => ⟨quiet, fun _ left empty => ?_⟩⟩
    refine left ?_
    show c.unread.drop n = []
    rw [empty, List.drop_nil]

/-- A read leaves the room for sending, and what is known of it, to the kernel. -/
theorem read_room {limit : Nat} (positive : 0 < limit) {s : PolledStream}
    (asks : s.interest.any (·.writable) = true) (due : RoomDue s) : RoomDue (read limit s).2 := by
  obtain ⟨c, later, ⟨e, failed⟩ | ⟨ended, -, -⟩ | ⟨n, -, taken⟩⟩ := read_cases positive s
  · rw [failed]
    exact later.room asks due
  · rw [ended]
    exact later.room asks due
  · rw [taken]
    exact (later.room asks due).mono rfl rfl id

theorem write_settles (bytes : Bytes) (s : PolledStream) : Settles s (write bytes s).2 := by
  obtain ⟨c, later, ⟨e, failed, -⟩ | ⟨-, blocked⟩ | ⟨n, noSpace, -, wrote⟩⟩ := write_cases bytes s
  · rw [failed]
    exact later.settles
  · rw [blocked]
    exact later.settles.trans ⟨rfl, fun quiet => ⟨quiet, fun _ => id⟩⟩
  · rw [wrote]
    exact later.settles.trans ⟨rfl, fun quiet => ⟨quiet, fun _ => id⟩⟩

/-- What the peer sent and was not read is the same, wherever it is by now. -/
structure Unread (s s' : PolledStream) : Prop where
  stream : s'.unread ++ s'.incoming = s.unread ++ s.incoming
  fin : s.fin = true → s'.fin = true

theorem Unread.refl (s : PolledStream) : Unread s s := ⟨rfl, id⟩

theorem Unread.trans {s₁ s₂ s₃ : PolledStream} (first : Unread s₁ s₂) (next : Unread s₂ s₃) :
    Unread s₁ s₃ :=
  ⟨next.stream.trans first.stream, fun ended => next.fin (first.fin ended)⟩

theorem Later.unread {s s' : PolledStream} (later : Later s s') : Unread s s' :=
  ⟨later.stream, later.fin⟩

theorem write_unread (bytes : Bytes) (s : PolledStream) : Unread s (write bytes s).2 := by
  obtain ⟨c, later, ⟨e, failed, -⟩ | ⟨-, blocked⟩ | ⟨n, noSpace, -, wrote⟩⟩ := write_cases bytes s
  · rw [failed]
    exact later.unread
  · rw [blocked]
    exact ⟨later.stream, later.fin⟩
  · rw [wrote]
    exact ⟨later.stream, later.fin⟩

theorem shutdownWrite_unread (s : PolledStream) : Unread s (shutdownWrite s).2 := by
  have later := advance_later s
  unfold shutdownWrite
  dsimp only
  split
  · exact later.unread
  · exact ⟨later.stream, later.fin⟩

theorem registry_unread (call : RegistryCall) (s : PolledStream) :
    Unread s (registry call s).2 := by
  have later := advance_later s
  unfold registry
  dsimp only
  split
  · exact later.unread
  · split <;> exact ⟨later.stream, later.fin⟩

theorem poll_unread (s : PolledStream) : Unread s (poll s).2 := by
  obtain ⟨c, later, ⟨e, failed⟩ | ⟨interest, -, -, delivered⟩ | ⟨-, none⟩⟩ := poll_cases s
  · rw [failed]
    exact later.unread
  · rw [delivered]
    exact ⟨later.stream, later.fin⟩
  · rw [none]
    exact later.unread

/-- The read fails with an error that is more than a pause. -/
def Fails (limit : Nat) (s : PolledStream) : Prop :=
  ∃ e, (read limit s).1 = .error e ∧ e.kind ≠ .wouldBlock ∧ e.kind ≠ .interrupted

/-- Nothing more can be read from the peer. -/
structure Exhausted (s : PolledStream) : Prop where
  fin : s.fin = true
  unread : s.unread = []

theorem Exhausted.stream {s : PolledStream} (exhausted : Exhausted s) :
    s.unread ++ s.incoming = [] := by
  rw [exhausted.unread, s.finLast exhausted.fin, List.append_nil]

theorem Exhausted.stays {s s' : PolledStream} (exhausted : Exhausted s) (same : Unread s s') :
    Exhausted s' := by
  refine ⟨same.fin exhausted.fin, ?_⟩
  have none := same.stream.trans exhausted.stream
  exact (List.append_eq_nil_iff.mp none).1

end PolledStream

end Commeatus.Lib
