import Mathlib.Logic.Function.Basic
import Commeatus.Lib.Io

/-!
The relay of a plain TCP session (`TcpTransportSession::relay_to_client` in
`transport/src/lib.rs`).

Two threads copy at once, one in each direction. A thread whose source ends shuts
the sending side of its sink and leaves the other direction alone; a thread that
fails shuts both sockets in both directions. The steps of the two threads, of the
caller that waits for them and of the network come in any order.
-/

namespace Commeatus.Transport.TcpRelay

open Commeatus.Lib

inductive Peer where
  | client | remote
  deriving DecidableEq

inductive Direction where
  | uplink | downlink
  deriving DecidableEq

namespace Direction

def source : Direction → Peer
  | .uplink => .client
  | .downlink => .remote

def sink : Direction → Peer
  | .uplink => .remote
  | .downlink => .client

def other : Direction → Direction
  | .uplink => .downlink
  | .downlink => .uplink

@[simp] theorem source_other (d : Direction) : d.other.source = d.sink := by cases d <;> rfl

@[simp] theorem sink_other (d : Direction) : d.other.sink = d.source := by cases d <;> rfl

theorem source_ne_sink (d : Direction) : d.source ≠ d.sink := by cases d <;> simp [source, sink]

theorem eq_or_eq_other (d d' : Direction) :
    d' = d ∨ d' = d.other := by cases d <;> cases d' <;> simp [other]

theorem other_ne (d : Direction) : d.other ≠ d := by cases d <;> simp [other]

end Direction

/-- A socket of the relay: what has come from its peer and how much of it was read, whether the peer
has sent its end, what was written to it, and which of its sides were shut. -/
structure Socket where
  arrived : Bytes := []
  taken : Bytes := []
  finished : Bool := false
  sent : Bytes := []
  readShut : Bool := false
  writeShut : Bool := false

/-- `shutdown(Shutdown::Both)`. A socket for which it fails is no longer connected, which is no
different here. -/
def Socket.shut (s : Socket) : Socket := { s with readShut := true, writeShut := true }

/-- Where a thread stands: in `io::copy`, before the shutdown of its sink, or between the two
shutdowns after an error. A call that is interrupted is made again and is no step. -/
inductive Copier where
  | reading
  | writing (rest : Bytes)
  | closing
  | aborting (e : IoError)
  | abortingRemote (e : IoError)
  | ended (copied shut : Except IoError Unit)

namespace Copier

/-- What was read and is not yet written. -/
def held : Copier → Bytes
  | .writing rest => rest
  | _ => []

/-- The error of `io::copy`. -/
def failure : Copier → Option IoError
  | .aborting e => some e
  | .abortingRemote e => some e
  | .ended (.error e) _ => some e
  | _ => none

/-- `io::copy` has come to the end of its source. -/
def complete : Copier → Bool
  | .closing => true
  | .ended (.ok ()) _ => true
  | _ => false

/-- After a write: on with the rest of the chunk, or with the next one. -/
def after (rest : Bytes) : Copier := if rest = [] then .reading else .writing rest

@[simp] theorem held_after (rest : Bytes) : (after rest).held = rest := by
  unfold after
  split
  · rename_i done
    rw [done]
    rfl
  · rfl

@[simp] theorem failure_after (rest : Bytes) : (after rest).failure = none := by
  unfold after
  split <;> rfl

@[simp] theorem complete_after (rest : Bytes) : (after rest).complete = false := by
  unfold after
  split <;> rfl

end Copier

/-- The calls before the threads run; each may fail, and the relay then ends. -/
inductive SetupCall where
  | readTimeout (peer : Peer)
  | writeTimeout (peer : Peer)
  | nodelay (peer : Peer)
  | tryClone (peer : Peer)
  | spawn

def setup : List SetupCall :=
  [.readTimeout .remote, .writeTimeout .remote, .readTimeout .client,
    .writeTimeout .client, .nodelay .client,
    .nodelay .remote, .tryClone .client, .tryClone .remote, .spawn]

inductive Phase where
  | preparing (calls : List SetupCall)
  | running
  | returned (result : Except IoError Unit)

structure Relay where
  sockets : Peer → Socket
  copiers : Direction → Copier
  phase : Phase

/-- What a write to a socket whose sending side is shut gives. -/
def brokenPipe : IoError := ⟨.brokenPipe, "Broken pipe (os error 32)"⟩

/-- A step of one thread: whether it is a fault, and what becomes of the thread's source, its sink
and itself. That a socket is shut is no fault: a read of it ends and a write to it is refused. -/
inductive Copies (d : Direction) : Bool → Socket → Socket → Copier → Socket →
    Socket → Copier → Prop where
  | reads {s t : Socket} {chunk : Bytes} (some : chunk ≠ [])
      (pending : s.taken ++ chunk <+: s.arrived) :
      Copies d false s t .reading { s with taken := s.taken ++ chunk } t (.writing chunk)
  | readsEnd {s t : Socket} (all : s.taken = s.arrived)
      (ends : s.finished = true ∨ s.readShut = true) :
      Copies d false s t .reading s t .closing
  | readFails {s t : Socket} (e : IoError) : Copies d true s t .reading s t (.aborting e)
  | writes {s t : Socket} {part rest : Bytes} (some : part ≠ []) (open' : t.writeShut = false) :
      Copies d false s t (.writing (part ++ rest)) s { t with sent := t.sent ++ part } (.after rest)
  | writeRefused {s t : Socket} {rest : Bytes} (shut : t.writeShut = true) :
      Copies d false s t (.writing rest) s t (.aborting brokenPipe)
  | writeFails {s t : Socket} {rest : Bytes} (e : IoError) :
      Copies d true s t (.writing rest) s t (.aborting e)
  | closes {s t : Socket} :
      Copies d false s t .closing s { t with writeShut := true } (.ended (.ok ()) (.ok ()))
  | closeFails {s t : Socket} (e : IoError) :
      Copies d true s t .closing s t (.ended (.ok ()) (.error e))
  | abortsClient {s t : Socket} {e : IoError} :
      Copies d false s t (.aborting e) (if d.source = .client then s.shut else s)
        (if d.sink = .client then t.shut else t) (.abortingRemote e)
  | abortsRemote {s t : Socket} {e : IoError} :
      Copies d false s t (.abortingRemote e) (if d.source = .remote then s.shut else s)
        (if d.sink = .remote then t.shut else t) (.ended (.error e) (.ok ()))

inductive Actor where
  | network
  | copier (d : Direction)
  | main
  deriving DecidableEq

namespace Relay

/-- The relay after a step of one thread. -/
def copied (r : Relay) (d : Direction) (s t : Socket) (c : Copier) : Relay where
  sockets := Function.update (Function.update r.sockets d.source s) d.sink t
  copiers := Function.update r.copiers d c
  phase := r.phase

/-- `downlink?; shutdown?; uplink?`, where the uplink's own result is that of its copy and then of
its shutdown. -/
def verdict (down up : Except IoError Unit × Except IoError Unit) : Except IoError Unit := do
  down.1
  down.2
  up.1
  up.2

/-- A step of the system, and whether it is a fault. The network may bring more to a socket, or its
end. -/
inductive Step : Actor → Bool → Relay → Relay → Prop where
  | arrives {r : Relay} (p : Peer) (bytes : Bytes) (unfinished : (r.sockets p).finished = false) :
      Step .network false r { r with
        sockets := Function.update r.sockets p
          { r.sockets p with arrived := (r.sockets p).arrived ++ bytes } }
  | finishes {r : Relay} (p : Peer) :
      Step .network false r { r with
        sockets := Function.update r.sockets p { r.sockets p with finished := true } }
  | prepared {r : Relay} {call : SetupCall} {calls : List SetupCall}
      (preparing : r.phase = .preparing (call :: calls)) :
      Step .main false r { r with phase := .preparing calls }
  | unprepared {r : Relay} {call : SetupCall} {calls : List SetupCall}
      (preparing : r.phase = .preparing (call :: calls)) (e : IoError) :
      Step .main true r { r with phase := .returned (.error e) }
  | starts {r : Relay} (preparing : r.phase = .preparing []) :
      Step .main false r { r with phase := .running }
  | copies {r : Relay} (d : Direction) {fault : Bool} {s t : Socket} {c : Copier}
      (running : r.phase = .running)
      (step : Copies d fault (r.sockets d.source) (r.sockets d.sink) (r.copiers d) s t c) :
      Step (.copier d) fault r (r.copied d s t c)
  | returns {r : Relay} {down up : Except IoError Unit × Except IoError Unit}
      (running : r.phase = .running) (downEnded : r.copiers .downlink = .ended down.1 down.2)
      (upEnded : r.copiers .uplink = .ended up.1 up.2) :
      Step .main false r { r with phase := .returned (verdict down up) }

/-- Steps of the given actors, one after the other. -/
inductive Runs (r : Relay) : List Actor → Relay → Prop where
  | refl : Runs r [] r
  | tail {actors : List Actor} {actor : Actor} {fault : Bool} {r' r'' : Relay}
      (earlier : Runs r actors r') (step : Step actor fault r' r'') :
      Runs r (actors ++ [actor]) r''

/-- A relay about to start; what a peer has sent by then may have arrived. -/
def start (arrived : Peer → Bytes) (finished : Peer → Bool) : Relay where
  sockets p := { arrived := arrived p, finished := finished p }
  copiers _ := .reading
  phase := .preparing setup

/-- A thread's copy has failed. -/
def Failing (r : Relay) : Prop := ∃ d, (r.copiers d).failure ≠ none

end Relay

/-! ### What a step keeps -/

/-- More of the peer's bytes, or its end, and nothing else. -/
structure Socket.Grows (s s' : Socket) : Prop where
  arrived : s.arrived <+: s'.arrived
  ended : s.finished = true → s'.finished = true ∧ s'.arrived = s.arrived
  taken : s'.taken = s.taken
  sent : s'.sent = s.sent
  readShut : s'.readShut = s.readShut
  writeShut : s'.writeShut = s.writeShut

theorem Socket.Grows.refl (s : Socket) : s.Grows s :=
  ⟨List.prefix_refl _, fun finished => ⟨finished, rfl⟩, rfl, rfl, rfl, rfl⟩

/-- What one thread leaves alone: a socket read from is not written to, and the other way. -/
structure Copies.Frame (s t s' t' : Socket) : Prop where
  arrived : s'.arrived = s.arrived
  finished : s'.finished = s.finished
  sent : s'.sent = s.sent
  sinkArrived : t'.arrived = t.arrived
  sinkFinished : t'.finished = t.finished
  sinkTaken : t'.taken = t.taken
  readStays : s.readShut = true → s'.readShut = true
  writeStays : s.writeShut = true → s'.writeShut = true
  sinkReadStays : t.readShut = true → t'.readShut = true
  sinkWriteStays : t.writeShut = true → t'.writeShut = true

theorem Copies.frame {d : Direction} {s t s' t' : Socket} {c c' : Copier} {fault : Bool}
    (step : Copies d fault s t c s' t' c') :
    Copies.Frame s t s' t' := by
  cases step with
  | abortsClient | abortsRemote => constructor <;> split <;> simp [Socket.shut]
  | _ => constructor <;> simp

/-- Bytes in flight: what was read is what was written and what the thread still holds. -/
structure Flows (s t : Socket) (c : Copier) : Prop where
  read : s.taken <+: s.arrived
  written : ∃ rest, s.taken = t.sent ++ rest ∧ (c.failure = none → rest = c.held)
  shut : c = .ended (.ok ()) (.ok ()) → t.writeShut = true

theorem Flows.grows {s t s' t' : Socket} {c : Copier} (flows : Flows s t c) (source : s.Grows s')
    (sink : t.Grows t') :
    Flows s' t' c where
  read := by
    rw [source.taken]
    exact flows.read.trans source.arrived
  written := by
    rw [source.taken, sink.sent]
    exact flows.written
  shut := by
    rw [sink.writeShut]
    exact flows.shut

theorem Copies.flows {d : Direction} {s t s' t' : Socket} {c c' : Copier} {fault : Bool}
    (step : Copies d fault s t c s' t' c')
    (flows : Flows s t c) : Flows s' t' c' := by
  obtain ⟨read, ⟨rest, written, exactly⟩, shut⟩ := flows
  cases step with
  | reads _ pending =>
    refine ⟨pending, ⟨_, ?_, fun _ => rfl⟩, by simp⟩
    have drained : rest = [] := exactly rfl
    simp [written, drained, Copier.held]
  | readsEnd => exact ⟨read, ⟨rest, written, fun _ => exactly rfl⟩, by simp⟩
  | readFails | writeRefused | writeFails =>
    exact ⟨read, ⟨rest, written, by simp [Copier.failure]⟩, by simp⟩
  | writes =>
    refine ⟨read, ⟨_, ?_, fun _ => (Copier.held_after _).symm⟩, ?_⟩
    · have held := exactly rfl
      rw [written, held]
      simp [Copier.held]
    · intro ended
      have incomplete := congrArg Copier.complete ended
      rw [Copier.complete_after] at incomplete
      cases incomplete
  | closes => exact ⟨read, ⟨rest, written, fun _ => exactly rfl⟩, fun _ => rfl⟩
  | closeFails => exact ⟨read, ⟨rest, written, fun _ => exactly rfl⟩, by simp⟩
  | abortsClient | abortsRemote =>
    refine ⟨?_, ⟨rest, ?_, by simp [Copier.failure]⟩, by simp⟩
    · split <;> exact read
    · split <;> split <;> exact written

/-- A thread leaves the bytes of the other direction as they were. -/
theorem Copies.flows_other {d : Direction} {s t s' t' : Socket} {c c' o : Copier} {fault : Bool}
    (step : Copies d fault s t c s' t' c')
    (flows : Flows t s o) : Flows t' s' o := by
  have frame := step.frame
  constructor
  · rw [frame.sinkTaken, frame.sinkArrived]
    exact flows.read
  · rw [frame.sinkTaken, frame.sent]
    exact flows.written
  · exact fun ended => frame.writeStays (flows.shut ended)

/-- A failed copy stays failed. -/
theorem Copies.failure_lasts {d : Direction} {s t s' t' : Socket} {c c' : Copier} {fault : Bool}
    (step : Copies d fault s t c s' t' c')
    (failed : c.failure ≠ none) : c'.failure ≠ none := by
  cases step <;> simp_all [Copier.failure]

/-- One direction of a relay where no copy has failed: a sink is shut only after the last byte of a
source that ended. -/
structure Clean (s t : Socket) (c : Copier) : Prop where
  readable : s.readShut = false
  complete : c.complete = true → s.finished = true ∧ s.taken = s.arrived
  shut : t.writeShut = true → c.complete = true

theorem Clean.grows {s t s' t' : Socket} {c : Copier} (clean : Clean s t c) (source : s.Grows s')
    (sink : t.Grows t') :
    Clean s' t' c where
  readable := by
    rw [source.readShut]
    exact clean.readable
  complete ended := by
    obtain ⟨finished, all⟩ := clean.complete ended
    obtain ⟨finished', arrived⟩ := source.ended finished
    rw [source.taken, arrived]
    exact ⟨finished', all⟩
  shut := by
    rw [sink.writeShut]
    exact clean.shut

theorem Copies.clean {d : Direction} {s t s' t' : Socket} {c c' : Copier} {fault : Bool}
    (step : Copies d fault s t c s' t' c')
    (sound : c'.failure = none) (clean : Clean s t c) : Clean s' t' c' := by
  obtain ⟨readable, complete, shut⟩ := clean
  cases step with
  | reads =>
      exact ⟨readable, by simp [Copier.complete],
        fun closed => by simpa [Copier.complete] using shut closed⟩
  | readsEnd all ends =>
    have finished : s.finished = true := by simpa [readable] using ends
    exact ⟨readable, fun _ => ⟨finished, all⟩, fun _ => rfl⟩
  | readFails | writeRefused | writeFails | abortsClient | abortsRemote =>
    simp [Copier.failure] at sound
  | writes => exact ⟨readable, by simp, fun closed => by simpa [Copier.complete] using shut closed⟩
  | closes | closeFails => exact ⟨readable, fun _ => complete rfl, fun _ => rfl⟩

theorem Copies.clean_other {d : Direction} {s t s' t' : Socket} {c c' o : Copier} {fault : Bool}
    (step : Copies d fault s t c s' t' c')
    (sound : c'.failure = none) (clean : Clean t s o) : Clean t' s' o := by
  obtain ⟨readable, complete, shut⟩ := clean
  cases step with
  | readFails | writeRefused | writeFails | abortsClient | abortsRemote =>
    simp [Copier.failure] at sound
  | _ => exact ⟨readable, complete, shut⟩

namespace Relay

/-- One of the two directions of a relay, seen as its source, its sink and its thread. -/
def Along (r : Relay) (P : Socket → Socket → Copier → Prop) (d : Direction) : Prop :=
  P (r.sockets d.source) (r.sockets d.sink) (r.copiers d)

theorem along_copied {r : Relay} {P : Socket → Socket → Copier → Prop} (d : Direction)
    {s t : Socket} {c : Copier}
    (this : P s t c) (other : P t s (r.copiers d.other)) : ∀ d', (r.copied d s t c).Along P d' := by
  intro d'
  rcases d.eq_or_eq_other d' with rfl | rfl
  · simpa [Along, copied, d'.source_ne_sink] using this
  · simpa [Along, copied, d.source_ne_sink, d.other_ne] using other

theorem failing_copied {r : Relay} (d : Direction) {s t : Socket} {c : Copier}
    {fault : Bool}
    (step : Copies d fault (r.sockets d.source) (r.sockets d.sink) (r.copiers d) s t c)
    (failing : r.Failing) :
    (r.copied d s t c).Failing := by
  obtain ⟨d', failed⟩ := failing
  rcases d.eq_or_eq_other d' with rfl | rfl
  · exact ⟨d', by simpa [copied] using step.failure_lasts failed⟩
  · exact ⟨d.other, by simpa [copied, d.other_ne] using failed⟩

/-- The steps of the network only let the sockets grow. -/
theorem Step.grows {r r' : Relay} {fault : Bool} (step : Step .network fault r r') :
    (∀ p, (r.sockets p).Grows (r'.sockets p)) ∧ r'.copiers = r.copiers ∧ r'.phase = r.phase := by
  cases step with
  | arrives p bytes unfinished =>
    refine ⟨fun q => ?_, rfl, rfl⟩
    by_cases same : q = p
    · subst same
      simp only [Function.update_self]
      exact ⟨List.prefix_append _ _, by simp [unfinished], rfl, rfl, rfl, rfl⟩
    · simp only [Function.update_of_ne same]
      exact .refl _
  | finishes p =>
    refine ⟨fun q => ?_, rfl, rfl⟩
    by_cases same : q = p
    · subst same
      simp only [Function.update_self]
      exact ⟨List.prefix_refl _, fun _ => ⟨rfl, rfl⟩, rfl, rfl, rfl, rfl⟩
    · simp only [Function.update_of_ne same]
      exact .refl _

/-- What holds in every state of a relay. Nothing is copied before the threads start, and after the
return nothing is left to do. -/
structure Sound (r : Relay) : Prop where
  flows : ∀ d, r.Along Flows d
  clean : r.Failing ∨ ∀ d, r.Along Clean d
  preparing : ∀ calls, r.phase = .preparing calls → ∀ d, r.copiers d = .reading ∧
    (r.sockets d.source).taken = []
  returned : ∀ result, r.phase = .returned result →
    (∃ e, result = .error e ∧ ∀ p, (r.sockets p).taken = [] ∧ (r.sockets p).sent = []) ∨
      ∃ down up : Except IoError Unit × Except IoError Unit, r.copiers .downlink =
        .ended down.1 down.2 ∧
        r.copiers .uplink = .ended up.1 up.2 ∧ result = verdict down up

theorem sound_start (arrived : Peer → Bytes) (finished : Peer → Bool) :
    (start arrived finished).Sound where
  flows _ := ⟨List.nil_prefix, ⟨[], by simp [start, Copier.held]⟩, by simp [start]⟩
  clean := .inr fun _ => ⟨rfl, by simp [start, Copier.complete], by simp [start]⟩
  preparing _ _ _ := ⟨rfl, rfl⟩
  returned _ ended := by cases ended

/-- A thread that runs while nothing was read has written nothing. -/
theorem Sound.untouched {r : Relay} (sound : r.Sound) {calls : List SetupCall}
    (preparing : r.phase = .preparing calls)
    (p : Peer) : (r.sockets p).taken = [] ∧ (r.sockets p).sent = [] := by
  have taken : ∀ d : Direction, (r.sockets d.source).taken = [] ∧ (r.sockets d.sink).sent = [] := by
    intro d
    have none := (sound.preparing calls preparing d).2
    obtain ⟨rest, written, -⟩ := (sound.flows d).written
    rw [none] at written
    exact ⟨none, (List.append_eq_nil_iff.mp written.symm).1⟩
  cases p with
  | client => exact ⟨(taken .uplink).1, (taken .downlink).2⟩
  | remote => exact ⟨(taken .downlink).1, (taken .uplink).2⟩

theorem clean_copied {r : Relay} (d : Direction) {s t : Socket} {c : Copier}
    {fault : Bool}
    (step : Copies d fault (r.sockets d.source) (r.sockets d.sink) (r.copiers d) s t c)
    (clean : r.Failing ∨ ∀ d, r.Along Clean d) : (r.copied d s t c).Failing ∨
      ∀ d', (r.copied d s t c).Along Clean d' := by
  rcases clean with failing | clean
  · exact .inl (failing_copied d step failing)
  by_cases sound : c.failure = none
  · apply Or.inr
    apply along_copied d (step.clean sound (clean d))
    apply step.clean_other sound
    simpa [Along] using clean d.other
  · exact .inl ⟨d, by simpa [copied] using sound⟩

theorem Sound.network {r r' : Relay} {fault : Bool} (sound : r.Sound)
    (step : Step .network fault r r') : r'.Sound := by
  obtain ⟨grows, copiers, phase⟩ := step.grows
  constructor
  · intro d
    have flows := (sound.flows d).grows (grows _) (grows _)
    simpa [Along, copiers] using flows
  · apply sound.clean.imp
    · rintro ⟨d, failed⟩
      exact ⟨d, by simpa [copiers] using failed⟩
    · intro clean d
      have clean' := (clean d).grows (grows _) (grows _)
      simpa [Along, copiers] using clean'
  · intro calls preparing d
    rw [copiers, (grows _).taken]
    exact sound.preparing calls (phase ▸ preparing) d
  · intro result returned
    rw [copiers]
    apply (sound.returned result (phase ▸ returned)).imp_left
    rintro ⟨e, failed, untouched⟩
    exact ⟨e, failed, fun p => by simpa [(grows p).taken, (grows p).sent] using untouched p⟩

theorem Sound.copier {d : Direction} {r r' : Relay} {fault : Bool} (sound : r.Sound)
    (step : Step (.copier d) fault r r') : r'.Sound := by
  cases step with
  | copies _ running step =>
    have other : Flows (r.sockets d.sink) (r.sockets d.source) (r.copiers d.other) := by
      simpa [Along] using sound.flows d.other
    constructor
    · exact along_copied d (step.flows (sound.flows d)) (step.flows_other other)
    · exact clean_copied d step sound.clean
    · intro calls preparing
      cases running.symm.trans preparing
    · intro result returned
      cases running.symm.trans returned

theorem Sound.main {r r' : Relay} {fault : Bool} (sound : r.Sound)
    (step : Step .main fault r r') : r'.Sound := by
  cases step with
  | prepared preparing =>
    constructor
    · exact sound.flows
    · exact sound.clean
    · exact fun _ _ => sound.preparing _ preparing
    · rintro result ⟨⟩
  | unprepared preparing e =>
    constructor
    · exact sound.flows
    · exact sound.clean
    · rintro calls ⟨⟩
    · rintro result ⟨⟩
      exact .inl ⟨e, rfl, sound.untouched preparing⟩
  | starts preparing =>
    constructor
    · exact sound.flows
    · exact sound.clean
    · rintro calls ⟨⟩
    · rintro result ⟨⟩
  | returns running downEnded upEnded =>
    constructor
    · exact sound.flows
    · exact sound.clean
    · rintro calls ⟨⟩
    · rintro result ⟨⟩
      exact .inr ⟨_, _, downEnded, upEnded, rfl⟩

theorem Sound.step {actor : Actor} {r r' : Relay} {fault : Bool} (sound : r.Sound)
    (step : Step actor fault r r') : r'.Sound := by
  cases actor with
  | network => exact sound.network step
  | copier d => exact sound.copier step
  | main => exact sound.main step

theorem Sound.runs {actors : List Actor} {r r' : Relay} (sound : r.Sound)
    (runs : r.Runs actors r') : r'.Sound := by
  induction runs with
  | refl => exact sound
  | tail _ step ih => exact ih.step step

/-- What a relay in a sound state has done in one direction. -/
theorem Sound.delivered {r : Relay} (sound : r.Sound) (d : Direction) :
    (r.sockets d.sink).sent <+: (r.sockets d.source).arrived ∧
      ((r.sockets d.sink).writeShut = true → r.Failing ∨
        ((r.sockets d.source).finished = true ∧ (r.sockets d.sink).sent =
          (r.sockets d.source).arrived)) := by
  obtain ⟨read, ⟨rest, written, exactly⟩, -⟩ := sound.flows d
  constructor
  · rw [written] at read
    exact (List.prefix_append _ _).trans read
  · intro shut
    rw [or_iff_not_imp_left]
    intro clean
    have complete := ((sound.clean.resolve_left clean) d).shut shut
    obtain ⟨finished, all⟩ := ((sound.clean.resolve_left clean) d).complete complete
    have none : (r.copiers d).failure = none := by
      by_contra failed
      exact clean ⟨d, failed⟩
    have held : (r.copiers d).held = [] := by
      cases h : r.copiers d with
      | writing rest => simp [h, Copier.complete] at complete
      | _ => rfl
    rw [exactly none, held, List.append_nil, all] at written
    exact ⟨finished, written.symm⟩

theorem verdict_ok {down up : Except IoError Unit × Except IoError Unit}
    (ok : verdict down up = .ok ()) :
    down = (.ok (), .ok ()) ∧ up = (.ok (), .ok ()) := by
  rcases down with ⟨_ | ⟨⟨⟩⟩, _ | ⟨⟨⟩⟩⟩ <;> rcases up with ⟨_ | ⟨⟨⟩⟩, _ | ⟨⟨⟩⟩⟩ <;>
    first | exact ⟨rfl, rfl⟩ | cases ok

/-- Both copies and both shutdowns of a relay that returned without an error went well. -/
theorem Sound.returned_ok {r : Relay} (sound : r.Sound) (returned : r.phase = .returned (.ok ()))
    (d : Direction) :
    r.copiers d = .ended (.ok ()) (.ok ()) := by
  rcases sound.returned _ returned with ⟨e, failed, -⟩ | ⟨down, up, downEnded, upEnded, result⟩
  · cases failed
  · obtain ⟨rfl, rfl⟩ := verdict_ok result.symm
    cases d with
    | uplink => exact upEnded
    | downlink => exact downEnded

/-- A relay passes each peer's bytes on in order, with none lost, repeated or made up, and tells a
peer that the other has ended only after its last byte; it returns without an error only when it has
passed on everything both peers had to send. -/
theorem relay_is_faithful (arrived : Peer → Bytes) (finished : Peer → Bool)
    {actors : List Actor} {r : Relay}
    (runs : (start arrived finished).Runs actors r) :
    (∀ d : Direction, (r.sockets d.sink).sent <+: (r.sockets d.source).arrived ∧
      ((r.sockets d.sink).writeShut = true → r.Failing ∨
        ((r.sockets d.source).finished = true ∧ (r.sockets d.sink).sent =
          (r.sockets d.source).arrived))) ∧
    (r.phase = .returned (.ok ()) → ∀ d : Direction, (r.sockets d.source).finished = true ∧
      (r.sockets d.sink).sent = (r.sockets d.source).arrived ∧
      (r.sockets d.sink).writeShut = true) ∧
    ∀ e, r.phase = .returned (.error e) →
      (∀ p, (r.sockets p).taken = [] ∧ (r.sockets p).sent = []) ∨
      ∃ down up : Except IoError Unit × Except IoError Unit, r.copiers .downlink =
        .ended down.1 down.2 ∧
        r.copiers .uplink = .ended up.1 up.2 ∧ verdict down up = .error e := by
  have sound := (sound_start arrived finished).runs runs
  refine ⟨sound.delivered, ?_, ?_⟩
  · intro returned d
    have ended := sound.returned_ok returned
    have shut := (sound.flows d).shut (ended d)
    have clean : ¬ r.Failing := by
      rintro ⟨d', failed⟩
      rw [ended d'] at failed
      exact failed rfl
    obtain ⟨finished, sent⟩ := ((sound.delivered d).2 shut).resolve_left clean
    exact ⟨finished, sent, shut⟩
  · intro e returned
    apply (sound.returned _ returned).imp
    · rintro ⟨-, -, untouched⟩
      exact untouched
    · rintro ⟨down, up, downEnded, upEnded, result⟩
      exact ⟨down, up, downEnded, upEnded, result.symm⟩

/-- The calls that are left before the threads start may all succeed. -/
theorem Runs.prepared {r r' : Relay} {actors : List Actor} (runs : r.Runs actors r')
    {calls : List SetupCall} (preparing : r'.phase = .preparing calls) :
    ∃ actors, r.Runs actors { r' with phase := .running } := by
  induction calls generalizing actors r' with
  | nil => exact ⟨_, runs.tail (.starts preparing)⟩
  | cons call calls ih =>
      obtain ⟨actors, begun⟩ := ih (runs.tail (.prepared preparing)) rfl
      exact ⟨actors, begun⟩

/-- A byte from each peer, and then its end. -/
theorem relay_is_faithful_example :
    ∃ actors r, (start (fun _ => [97]) fun _ => true).Runs actors r ∧
    r.phase = .returned (.ok ()) ∧ ∀ d : Direction, (r.sockets d.source).finished = true ∧
      (r.sockets d.sink).sent = (r.sockets d.source).arrived ∧
      (r.sockets d.sink).writeShut = true := by
  obtain ⟨actors, prepared⟩ := (Runs.refl (r := start (fun _ => [97]) fun _ => true)).prepared rfl
  have up :=
    prepared.tail (.copies .uplink rfl (@Copies.reads _ _ _ [97] (by simp) (List.prefix_refl _)))
  have up := up.tail (.copies .uplink rfl (@Copies.writes _ _ _ [97] [] (by simp) rfl))
  have up := up.tail (.copies .uplink rfl (.readsEnd rfl (.inl rfl)))
  have both :=
    up.tail (.copies .downlink rfl (@Copies.reads _ _ _ [97] (by simp) (List.prefix_refl _)))
  have both := both.tail (.copies .uplink rfl .closes)
  have both := both.tail (.copies .downlink rfl (@Copies.writes _ _ _ [97] [] (by simp) rfl))
  have both := both.tail (.copies .downlink rfl (.readsEnd rfl (.inl rfl)))
  have both := both.tail (.copies .downlink rfl .closes)
  have returned := both.tail (@Step.returns _ (.ok (), .ok ()) (.ok (), .ok ()) rfl rfl rfl)
  exact ⟨_, _, returned, rfl, (relay_is_faithful _ _ returned).2.1 rfl⟩

/-! ### The end after a failure -/

end Relay

/-- Shut in both directions. -/
def Socket.Shut (s : Socket) : Prop := s.readShut = true ∧ s.writeShut = true

theorem Copies.aborts_client {d : Direction} {s t s' t' : Socket} {c c' : Copier} {e : IoError}
    {fault : Bool} (step : Copies d fault s t c s' t' c') (aborting : c' = .abortingRemote e) :
    (if d.sink = .client then t' else s').Shut := by
  cases step with
  | abortsClient => cases d <;> simp [Direction.source, Direction.sink, Socket.Shut, Socket.shut]
  | writes =>
    have failed := congrArg Copier.failure aborting
    rw [Copier.failure_after] at failed
    cases failed
  | _ => cases aborting

theorem Copies.aborts_remote {d : Direction} {s t s' t' : Socket} {c c' : Copier} {e : IoError}
    {shut : Except IoError Unit} {fault : Bool} (step : Copies d fault s t c s' t' c')
    (failed : c' = .ended (.error e) shut) :
    c = .abortingRemote e ∧ (if d.sink = .remote then t' else s').Shut := by
  cases step with
  | abortsRemote =>
    cases failed
    cases d <;> simp [Direction.source, Direction.sink, Socket.Shut, Socket.shut]
  | writes =>
    have running := congrArg Copier.failure failed
    rw [Copier.failure_after] at running
    cases running
  | _ => cases failed

namespace Relay

theorem Step.shut_stays {actor : Actor} {r r' : Relay} {fault : Bool} (step : Step actor fault r r')
    {p : Peer} (shut : (r.sockets p).Shut) :
    (r'.sockets p).Shut := by
  cases actor with
  | network =>
    obtain ⟨grows, -, -⟩ := step.grows
    exact ⟨(grows p).readShut.trans shut.1, (grows p).writeShut.trans shut.2⟩
  | copier d =>
    cases step with
    | copies _ running step =>
      have frame := step.frame
      by_cases sink : p = d.sink
      · subst sink
        simp only [copied, Function.update_self]
        exact ⟨frame.sinkReadStays shut.1, frame.sinkWriteStays shut.2⟩
      by_cases source : p = d.source
      · subst source
        simp only [copied, Function.update_of_ne sink, Function.update_self]
        exact ⟨frame.readStays shut.1, frame.writeStays shut.2⟩
      · simpa only [copied, Function.update_of_ne sink, Function.update_of_ne source] using shut
  | main => cases step <;> exact shut

/-- How far a thread that failed has come with shutting the sockets. -/
structure Aborts (r : Relay) : Prop where
  client : ∀ d e, r.copiers d = .abortingRemote e → (r.sockets .client).Shut
  both : ∀ d e shut, r.copiers d = .ended (.error e) shut → ∀ p, (r.sockets p).Shut

theorem Aborts.step {actor : Actor} {r r' : Relay} {fault : Bool} (aborts : r.Aborts)
    (step : Step actor fault r r') : r'.Aborts := by
  have stays : ∀ p, (r.sockets p).Shut → (r'.sockets p).Shut := fun _ shut => step.shut_stays shut
  cases actor with
  | network =>
    obtain ⟨-, copiers, -⟩ := step.grows
    constructor
    · intro d e aborting
      exact stays _ (aborts.client d e (copiers ▸ aborting))
    · intro d e shut failed p
      exact stays p (aborts.both d e shut (copiers ▸ failed) p)
  | main => cases step <;> exact ⟨aborts.client, aborts.both⟩
  | copier d =>
    cases step with
    | copies _ running step =>
      constructor
      · intro d' e aborting
        rcases d.eq_or_eq_other d' with rfl | rfl
        · simp only [copied, Function.update_self] at aborting
          have shut := step.aborts_client aborting
          cases d' <;> exact shut
        · have aborting : r.copiers d.other = .abortingRemote e := by
            simpa [copied, d.other_ne] using aborting
          exact stays _ (aborts.client _ e aborting)
      · intro d' e shut failed
        rcases d.eq_or_eq_other d' with rfl | rfl
        · simp only [copied, Function.update_self] at failed
          obtain ⟨aborting, remote⟩ := step.aborts_remote failed
          have client := stays _ (aborts.client d' e aborting)
          intro p
          cases p with
          | client => exact client
          | remote => cases d' <;> exact remote
        · have failed : r.copiers d.other = .ended (.error e) shut := by
            simpa [copied, d.other_ne] using failed
          exact fun p => stays p (aborts.both _ e shut failed p)

theorem aborts_start (arrived : Peer → Bytes) (finished : Peer → Bool) :
    (start arrived finished).Aborts where
  client _ _ aborting := by cases aborting
  both _ _ _ failed := by cases failed

theorem Aborts.runs {actors : List Actor} {r r' : Relay} (aborts : r.Aborts)
    (runs : r.Runs actors r') : r'.Aborts := by
  induction runs with
  | refl => exact aborts
  | tail _ step ih => exact ih.step step

end Relay

/-- The steps a thread can still take when its sockets are shut. -/
def Copier.left : Copier → Nat
  | .reading => 4
  | .writing _ => 3
  | .aborting _ => 2
  | .abortingRemote _ => 1
  | .closing => 1
  | .ended _ _ => 0

theorem Copier.left_le (c : Copier) : c.left ≤ 4 := by cases c <;> simp [left]

theorem Copies.left_lt {d : Direction} {s t s' t' : Socket} {c c' : Copier} {fault : Bool}
    (step : Copies d fault s t c s' t' c')
    (shut : t.writeShut = true) : c'.left < c.left := by
  cases step with
  | writes _ open' => simp [shut] at open'
  | _ => simp [Copier.left]

/-- A thread between two shut sockets is never held up: what was left to read runs out, and no write
blocks. -/
theorem Copies.exists_of_shut {d : Direction} {s t : Socket} {c : Copier} (flows : Flows s t c)
    (shut : s.readShut = true) (sinkShut : t.writeShut = true) :
    (∃ copied shut, c = .ended copied shut) ∨ ∃ s' t' c', Copies d false s t c s' t' c' := by
  cases c with
  | ended copied shut => exact .inl ⟨copied, shut, rfl⟩
  | reading =>
    apply Or.inr
    obtain ⟨chunk, pending⟩ := flows.read
    by_cases all : s.taken = s.arrived
    · exact ⟨_, _, _, .readsEnd all (.inr shut)⟩
    · have some : chunk ≠ [] := by
        rintro rfl
        exact all (by simpa using pending)
      exact ⟨_, _, _, .reads some (pending ▸ List.prefix_refl _)⟩
  | writing rest => exact .inr ⟨_, _, _, .writeRefused sinkShut⟩
  | closing => exact .inr ⟨_, _, _, .closes⟩
  | aborting e => exact .inr ⟨_, _, _, .abortsClient⟩
  | abortingRemote e => exact .inr ⟨_, _, _, .abortsRemote⟩

namespace Relay

/-- The steps of the threads and their caller that are left when both sockets are shut. -/
def left (r : Relay) : Nat :=
  match r.phase with
  | .running => 1 + (r.copiers .uplink).left + (r.copiers .downlink).left
  | _ => 0

/-- A relay with a thread that has failed and shut both sockets. -/
structure Failed (d : Direction) (e : IoError) (shut : Except IoError Unit) (r : Relay) : Prop where
  sound : r.Sound
  sockets : ∀ p, (r.sockets p).Shut
  ended : r.copiers d = .ended (.error e) shut
  phase : r.phase = .running ∨ ∃ e', r.phase = .returned (.error e')

theorem verdict_error {down up : Except IoError Unit × Except IoError Unit} {e : IoError}
    {shut : Except IoError Unit}
    (failed : down = (.error e, shut) ∨ up = (.error e, shut)) :
    ∃ e', verdict down up = .error e' := by
  rcases failed with rfl | rfl
  · exact ⟨e, rfl⟩
  · rcases down with ⟨e' | ⟨⟨⟩⟩, e'' | ⟨⟨⟩⟩⟩
    · exact ⟨e', rfl⟩
    · exact ⟨e', rfl⟩
    · exact ⟨e'', rfl⟩
    · exact ⟨e, rfl⟩

theorem Failed.step {d : Direction} {e : IoError} {shut : Except IoError Unit} {actor : Actor}
    {fault : Bool} {r r' : Relay} (failed : r.Failed d e shut) (step : Step actor fault r r') :
    r'.Failed d e shut ∧ r'.left + (if actor = .network then 0 else 1) ≤ r.left := by
  have sound := failed.sound.step step
  have sockets : ∀ p, (r'.sockets p).Shut := fun p => step.shut_stays (failed.sockets p)
  cases actor with
  | network =>
    obtain ⟨-, copiers, phase⟩ := step.grows
    exact ⟨⟨sound, sockets, copiers ▸ failed.ended, phase ▸ failed.phase⟩, by
      simp [left, copiers, phase]⟩
  | copier d' =>
    cases step with
    | copies _ running step =>
      have other : d' = d.other := by
        rcases d.eq_or_eq_other d' with rfl | other
        · rw [failed.ended] at step
          cases step
        · exact other
      subst other
      have less := step.left_lt (failed.sockets _).2
      refine ⟨⟨sound, sockets, ?_, .inl running⟩, ?_⟩
      · simpa [copied, d.other_ne.symm] using failed.ended
      · cases d <;> simp only [Direction.other] at less <;>
          simp [left, copied, running, Direction.other, Function.update] <;> omega
  | main =>
    cases step with
    | prepared preparing | unprepared preparing | starts preparing =>
      rcases failed.phase with running | ⟨_, returned⟩
      · cases running.symm.trans preparing
      · cases returned.symm.trans preparing
    | @returns _ down up running downEnded upEnded =>
      refine ⟨⟨sound, sockets, failed.ended, .inr ?_⟩, ?_⟩
      swap
      · simp only [left, running, reduceCtorEq, if_false]
        omega
      have error : down = (.error e, shut) ∨ up = (.error e, shut) := by
        cases d with
        | downlink =>
          injection downEnded.symm.trans failed.ended with copied shut
          exact .inl (Prod.ext copied shut)
        | uplink =>
          injection upEnded.symm.trans failed.ended with copied shut
          exact .inr (Prod.ext copied shut)
      obtain ⟨e', error⟩ := verdict_error error
      exact ⟨e', by rw [error]⟩

theorem Failed.runs {d : Direction} {e : IoError} {shut : Except IoError Unit}
    {actors : List Actor} {r r' : Relay}
    (failed : r.Failed d e shut) (runs : r.Runs actors r') :
    r'.Failed d e shut ∧ r'.left + (actors.filter (· ≠ .network)).length ≤ r.left := by
  induction runs with
  | refl => exact ⟨failed, by simp⟩
  | @tail actors actor _ _ _ _ step ih =>
    obtain ⟨failed', steps⟩ := ih
    obtain ⟨failed'', less⟩ := failed'.step step
    refine ⟨failed'', ?_⟩
    by_cases network : actor = .network <;> simp_all <;> omega

/-- Until it returns, such a relay is never stuck, and needs no fault to go on. -/
theorem Failed.progress {d : Direction} {e : IoError} {shut : Except IoError Unit} {r : Relay}
    (failed : r.Failed d e shut) :
    (∃ e', r.phase = .returned (.error e')) ∨ ∃ actor r', actor ≠ .network ∧
      Step actor false r r' := by
  rcases failed.phase with running | returned
  · apply Or.inr
    have shut : (r.sockets d.other.source).readShut = true := (failed.sockets _).1
    have sinkShut : (r.sockets d.other.sink).writeShut = true := (failed.sockets _).2
    rcases Copies.exists_of_shut (failed.sound.flows d.other) shut sinkShut with
      ⟨copied, shut', ended⟩ | step
    · have main : ∃ r', Step .main false r r' := by
        cases d with
        | downlink => exact ⟨_, @Step.returns _ (_, _) (_, _) running failed.ended ended⟩
        | uplink => exact ⟨_, @Step.returns _ (_, _) (_, _) running ended failed.ended⟩
      obtain ⟨r', step⟩ := main
      exact ⟨.main, r', by simp, step⟩
    · obtain ⟨s, t, c, step⟩ := step
      exact ⟨.copier d.other, _, by simp, .copies d.other running step⟩
  · exact .inl returned

/-- Once a thread has failed and shut the sockets, neither the other thread nor the caller can be
held up: at most five of their steps are left, one of them can always be taken that is no fault, and
the relay returns an error. -/
theorem relay_ends_after_failure (arrived : Peer → Bytes) (finished : Peer → Bool)
    {actors later : List Actor} {r r' : Relay} (runs : (start arrived finished).Runs actors r)
    (running : r.phase = .running) {d : Direction} {e : IoError} {shut : Except IoError Unit}
    (failed : r.copiers d = .ended (.error e) shut) (on : r.Runs later r') :
    (later.filter (· ≠ .network)).length ≤ 5 ∧
      ((∃ e', r'.phase = .returned (.error e')) ∨
        ∃ actor r'', actor ≠ .network ∧ Step actor false r' r'') := by
  have sound := (sound_start arrived finished).runs runs
  have aborts := (aborts_start arrived finished).runs runs
  have stopped : r.Failed d e shut := ⟨sound, aborts.both d e shut failed, failed, .inl running⟩
  obtain ⟨stopped', steps⟩ := stopped.runs on
  refine ⟨?_, stopped'.progress⟩
  have left : r.left ≤ 5 := by
    have up := (r.copiers .uplink).left_le
    have down := (r.copiers .downlink).left_le
    cases d <;> simp_all [Relay.left, Copier.left] <;> omega
  omega

/-- The client's socket fails while the other thread holds a byte for the client. -/
theorem relay_ends_after_failure_example : ∃ later r',
    (∃ actors r, (start (fun _ => [97]) fun _ => false).Runs actors r ∧ r.phase = .running ∧
      r.Runs later r') ∧ (later.filter (· ≠ .network)).length ≤ 5 ∧
      ((∃ e', r'.phase = .returned (.error e')) ∨
        ∃ actor r'', actor ≠ .network ∧ Step actor false r' r'') := by
  let reset : IoError := ⟨.connectionReset, "Connection reset by peer (os error 104)"⟩
  obtain ⟨actors, runs⟩ := (Runs.refl (r := start (fun _ => [97]) fun _ => false)).prepared rfl
  have runs :=
    runs.tail (.copies .downlink rfl (@Copies.reads _ _ _ [97] (by simp) (List.prefix_refl _)))
  have runs := runs.tail (.copies .uplink rfl (.readFails reset))
  have runs := runs.tail (.copies .uplink rfl .abortsClient)
  have runs := runs.tail (.copies .uplink rfl .abortsRemote)
  have here {actors : List Actor} {r r' : Relay} (_ : r.Runs actors r') : r'.Runs [] r' := .refl
  have on := (here runs).tail (.copies .downlink rfl (.writeRefused rfl))
  have on := on.tail (.copies .downlink rfl .abortsClient)
  have on := on.tail (.copies .downlink rfl .abortsRemote)
  have on :=
    on.tail (@Step.returns _ (.error brokenPipe, .ok ()) (.error reset, .ok ()) rfl rfl rfl)
  exact ⟨_, _, ⟨_, _, runs, rfl, on⟩, relay_ends_after_failure _ _ runs rfl (d := .uplink) rfl on⟩

end Relay

end Commeatus.Transport.TcpRelay
