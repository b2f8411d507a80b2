import Commeatus.Daemon.DirectDatagram

/-!
What `receive` leaves behind.

A call reads at most so many datagrams from each socket, and passes over those
of strangers. So it may report that nothing is there while a reply waits behind
them.
-/

namespace Commeatus.Daemon

open Commeatus.Lib Commeatus.Core Commeatus.Dns
open Prog

/-! ### Sockets with queues -/

/-- What the kernel has for a socket: a datagram, or an error that a read will report. -/
inductive Pending where
  | datagram (payload : Bytes) (source : PeerAddr)
  | failed (e : IoError) (ready : e.kind ≠ .wouldBlock)

/-- A read answers with it; a datagram that is too long for the buffer is cut off. -/
def Pending.answer (limit : Nat) : Pending → Except IoError (Bytes × PeerAddr)
  | .datagram payload source => .ok (payload.take limit, source)
  | .failed e _ => .error e

/-- What waits on each socket, the oldest first. -/
abbrev Queues : Type := DirectSocket → List Pending

/-- A read takes what is first in the queue of the socket; an empty queue would block it. -/
inductive Answers : DirectEvent → Queues → Queues → Prop where
  | empty {queues : Queues} {socket : DirectSocket} (limit : Nat)
      (drained : queues socket = []) (e : IoError)
      (blocks : e.kind = .wouldBlock) : Answers ⟨.recvFrom socket limit, .error e⟩ queues queues
  | next {queues : Queues} {socket : DirectSocket} (limit : Nat) {pending : Pending}
      {rest : List Pending}
      (waits : queues socket = pending :: rest) :
      Answers ⟨.recvFrom socket limit, pending.answer limit⟩ queues
        (Function.update queues socket rest)

namespace DirectDatagramAssociation

/-- A datagram from a contacted peer. -/
def Trusted (association : DirectDatagramAssociation) : Pending → Prop
  | .datagram _ source => source ∈ association.remotePeers
  | .failed _ _ => False

/-- What the loop passes over: a datagram of a stranger, or an interruption. -/
def Ignored (remotePeers : Finset PeerAddr) : Pending → Prop
  | .datagram _ source => source ∉ remotePeers
  | .failed e _ => e.kind = .interrupted

/-- The association has the socket. -/
def Has (association : DirectDatagramAssociation) : DirectSocket → Prop
  | .ipv4 => True
  | .ipv6 => association.ipv6 = true

variable {association : DirectDatagramAssociation} {queues queues' : Queues}
    {socket : DirectSocket} {limit reads : Nat}
  {remotePeers : Finset PeerAddr} {result : Except IoError (Option ReceivedDatagram)}

/-! ### One socket -/

/-- The loop reports that nothing is there if it passed over all that it read. -/
structure Scans (remotePeers : Finset PeerAddr) (socket : DirectSocket) (reads : Nat)
    (queues queues' : Queues)
    (result : Except IoError (Option ReceivedDatagram)) : Prop where
  none_iff : result = .ok none ↔ ∀ pending ∈ (queues socket).take reads, Ignored remotePeers pending
  left : result = .ok none → queues' socket = (queues socket).drop reads
  others : ∀ other, other ≠ socket → queues' other = queues other

theorem receiveFromSocket_scans
    (ends : Ends Answers (receiveFromSocket socket remotePeers limit reads) queues result queues') :
    Scans remotePeers socket reads queues queues' result := by
  induction reads generalizing queues with
  | zero =>
      obtain ⟨rfl, rfl⟩ := Ends.done_iff.mp ends
      exact ⟨⟨fun _ _ no => absurd no List.not_mem_nil, fun _ => rfl⟩, fun _ => rfl, fun _ _ => rfl⟩
  | succ reads ih =>
      obtain ⟨answer, queues₁, read, rest⟩ := Ends.perform_bind_iff.mp ends
      cases read with
      | empty limit drained e blocks =>
          dsimp only at rest
          rw [if_pos blocks] at rest
          obtain ⟨rfl, rfl⟩ := Ends.done_iff.mp rest
          refine ⟨⟨fun _ pending member => ?_, fun _ => rfl⟩, fun _ => ?_, fun _ _ => rfl⟩
          · rw [drained] at member
            cases member
          · rw [drained]
            rfl
      | @next _ _ limit pending behind waits =>
          -- An entry that is passed over leaves the loop with the rest of the queue.
          have passed (ignored : Ignored remotePeers pending)
              (rest : Ends Answers (receiveFromSocket socket remotePeers limit reads)
                (Function.update queues socket behind)
                result queues') : Scans remotePeers socket (reads + 1) queues queues' result := by
            obtain ⟨none_iff, left, others⟩ := ih rest
            rw [Function.update_self] at none_iff left
            refine ⟨?_, fun none => ?_, fun other differs => ?_⟩
            · rw [none_iff, waits, List.take_succ_cons, List.forall_mem_cons, and_iff_right ignored]
            · rw [left none, waits, List.drop_succ_cons]
            · rw [others other differs, Function.update_of_ne differs]
          -- Any other ends it.
          have stopped (kept : ¬ Ignored remotePeers pending) (other : result ≠ .ok none)
              (same : queues' = Function.update queues socket behind) :
              Scans remotePeers socket (reads + 1) queues queues' result := by
            refine ⟨⟨fun no => absurd no other, fun all => ?_⟩, fun no => absurd no other,
              fun other differs => ?_⟩
            · rw [waits, List.take_succ_cons] at all
              exact absurd (all pending List.mem_cons_self) kept
            · rw [same, Function.update_of_ne differs]
          cases pending with
          | datagram payload source =>
              dsimp only [Pending.answer] at rest
              split at rest
              · rename_i stranger
                exact passed stranger rest
              · rename_i peer
                obtain ⟨rfl, rfl⟩ := Ends.done_iff.mp rest
                refine stopped peer ?_ rfl
                cases Target.new (.ip source.ip) source.port with
                | error e => exact fun no => nomatch no
                | ok target => exact fun no => nomatch no
          | failed e ready =>
              dsimp only [Pending.answer] at rest
              rw [if_neg ready] at rest
              split at rest
              · rename_i interrupted
                exact passed interrupted rest
              · rename_i hard
                obtain ⟨rfl, rfl⟩ := Ends.done_iff.mp rest
                exact stopped hard (fun no => nomatch no) rfl

theorem receiveFromSocket_ends (remotePeers : Finset PeerAddr) (socket : DirectSocket)
    (limit reads : Nat) (queues : Queues) :
    ∃ result queues', Ends Answers (receiveFromSocket socket remotePeers limit reads) queues
      result queues' := by
  induction reads generalizing queues with
  | zero => exact ⟨_, _, .done _ _⟩
  | succ reads ih =>
      cases waits : queues socket with
      | nil =>
          have blocked := Answers.empty limit waits ⟨.wouldBlock, ""⟩ rfl
          exact ⟨_, _, Ends.perform_bind_iff.mpr ⟨_, _, blocked, .done _ _⟩⟩
      | cons pending rest =>
          have read := Answers.next limit waits
          obtain ⟨later, queues₁, ends⟩ := ih (Function.update queues socket rest)
          cases answered : pending.answer limit with
          | ok received =>
              obtain ⟨payload, source⟩ := received
              rw [answered] at read
              by_cases stranger : source ∉ remotePeers
              · refine ⟨later, queues₁, Ends.perform_bind_iff.mpr ⟨_, _, read, ?_⟩⟩
                dsimp only
                rwa [if_pos stranger]
              · refine ⟨(Target.new (.ip source.ip) source.port).map fun target =>
                  some ⟨target, payload⟩,
                  Function.update queues socket rest, Ends.perform_bind_iff.mpr ⟨_, _, read, ?_⟩⟩
                dsimp only
                rw [if_neg stranger]
                exact .done _ _
          | error e =>
              rw [answered] at read
              by_cases blocked : e.kind = .wouldBlock
              · refine ⟨.ok none, Function.update queues socket rest,
                  Ends.perform_bind_iff.mpr ⟨_, _, read, ?_⟩⟩
                dsimp only
                rw [if_pos blocked]
                exact .done _ _
              by_cases interrupted : e.kind = .interrupted
              · refine ⟨later, queues₁, Ends.perform_bind_iff.mpr ⟨_, _, read, ?_⟩⟩
                dsimp only
                rwa [if_neg blocked, if_pos interrupted]
              · refine ⟨.error e, Function.update queues socket rest,
                  Ends.perform_bind_iff.mpr ⟨_, _, read, ?_⟩⟩
                dsimp only
                rw [if_neg blocked, if_neg interrupted]
                exact .done _ _

/-! ### A call -/

theorem receive_ends (association : DirectDatagramAssociation) (limit : Nat) (queues : Queues) :
    ∃ result queues', Ends Answers (association.receive limit) queues result queues' := by
  unfold receive
  split
  · exact ⟨_, _, .done _ _⟩
  · obtain ⟨first, queues₁, ends⟩ :=
      receiveFromSocket_ends association.remotePeers .ipv4 limit maxUntrustedDrainPerReceive queues
    match first with
    | .error e => exact ⟨_, _, Ends.bind_iff.mpr ⟨_, _, ends, .done _ _⟩⟩
    | .ok (some received) => exact ⟨_, _, Ends.bind_iff.mpr ⟨_, _, ends, .done _ _⟩⟩
    | .ok none =>
        by_cases both : association.ipv6 = true
        · obtain ⟨result, queues₂, ends'⟩ :=
            receiveFromSocket_ends association.remotePeers .ipv6 limit
              maxUntrustedDrainPerReceive queues₁
          refine ⟨result, queues₂, Ends.bind_iff.mpr ⟨_, _, ends, ?_⟩⟩
          dsimp only
          rwa [if_pos both]
        · refine ⟨.ok none, queues₁, Ends.bind_iff.mpr ⟨_, _, ends, ?_⟩⟩
          dsimp only
          rw [if_neg both]
          exact .done _ _

/-- A call reports that nothing is there if on each socket it passed over all that it read. -/
theorem receive_none_iff (some_room : limit ≠ 0)
    (ends : Ends Answers (association.receive limit) queues result queues') :
    (result = .ok none ↔ ∀ socket, association.Has socket →
      ∀ pending ∈ (queues socket).take maxUntrustedDrainPerReceive,
        Ignored association.remotePeers pending) ∧
    (result = .ok none → ∀ socket, association.Has socket →
      queues' socket = (queues socket).drop maxUntrustedDrainPerReceive) := by
  unfold receive at ends
  rw [if_neg some_room, Ends.bind_iff] at ends
  obtain ⟨first, queues₁, read, rest⟩ := ends
  obtain ⟨none_iff, left, others⟩ := receiveFromSocket_scans read
  have untouched := others .ipv6 (by decide)
  have differs (other : first ≠ .ok none) (same : result ≠ .ok none) :
      (result = .ok none ↔ ∀ socket, association.Has socket →
        ∀ pending ∈ (queues socket).take maxUntrustedDrainPerReceive,
          Ignored association.remotePeers pending) ∧
      (result = .ok none → ∀ socket, association.Has socket →
        queues' socket = (queues socket).drop maxUntrustedDrainPerReceive) :=
    ⟨⟨fun no => absurd no same, fun all => absurd (none_iff.mpr (all .ipv4 trivial)) other⟩,
      fun no => absurd no same⟩
  match first with
  | .error e =>
      obtain ⟨rfl, rfl⟩ := Ends.done_iff.mp rest
      exact differs (fun no => nomatch no) (fun no => nomatch no)
  | .ok (some received) =>
      obtain ⟨rfl, rfl⟩ := Ends.done_iff.mp rest
      exact differs (fun no => nomatch no) (fun no => nomatch no)
  | .ok none =>
      have passed := none_iff.mp rfl
      have behind := left rfl
      dsimp only at rest
      split at rest
      · rename_i both
        obtain ⟨none_iff', left', others'⟩ := receiveFromSocket_scans rest
        rw [untouched] at none_iff' left'
        refine ⟨?_, fun none socket has => ?_⟩
        · rw [none_iff']
          constructor
          · intro passed' socket has
            cases socket with
            | ipv4 => exact passed
            | ipv6 => exact passed'
          · intro all
            exact all .ipv6 both
        · cases socket with
          | ipv4 => rw [others' .ipv4 (by decide), behind]
          | ipv6 => exact left' none
      · rename_i one
        obtain ⟨rfl, rfl⟩ := Ends.done_iff.mp rest
        refine ⟨⟨fun _ socket has => ?_, fun _ => rfl⟩, fun _ socket has => ?_⟩
        · cases socket with
          | ipv4 => exact passed
          | ipv6 => exact absurd has one
        · cases socket with
          | ipv4 => exact behind
          | ipv6 => exact absurd has one

/-- When a call on the queues reports that nothing is there, no socket has a datagram from a
contacted peer. -/
def NoneMeansDrained (association : DirectDatagramAssociation) (limit : Nat)
    (queues : Queues) : Prop :=
  ∀ queues', Ends Answers (association.receive limit) queues (.ok none) queues' →
    ∀ socket, association.Has socket → ∀ pending ∈ queues socket, ¬ association.Trusted pending

/-- A report that nothing is there can be relied on if, with a datagram from a contacted peer in
some queue, one of the first 32 entries of a queue is something else than a stranger's datagram or
an interruption. -/
theorem none_means_drained_iff (association : DirectDatagramAssociation) (queues : Queues)
    (some_room : limit ≠ 0) :
    association.NoneMeansDrained limit queues ↔
      ((∃ socket, association.Has socket ∧ ∃ pending ∈ queues socket, association.Trusted pending) →
        ∃ socket, association.Has socket ∧
          ∃ pending ∈ (queues socket).take maxUntrustedDrainPerReceive,
            ¬ Ignored association.remotePeers pending) := by
  obtain ⟨result, queues', ends⟩ := association.receive_ends limit queues
  constructor
  · rintro drained ⟨socket, has, pending, waits, trusted⟩
    by_contra none
    push Not at none
    have reported := (receive_none_iff some_room ends).1.mpr none
    rw [reported] at ends
    exact drained queues' ends socket has pending waits trusted
  · intro reaches queues' ends socket has pending waits trusted
    obtain ⟨socket', has', pending', early, kept⟩ := reaches ⟨socket, has, pending, waits, trusted⟩
    exact kept ((receive_none_iff some_room ends).1.mp rfl socket' has' pending' early)

def sampleStranger : PeerAddr := { ip := .v4 ⟨198, 51, 100, 7⟩, port := 9 }

/-- The reply of a contacted peer behind the datagrams of strangers. -/
def sampleQueues (strangers : Nat) : Queues
  | .ipv4 => List.replicate strangers (.datagram [] sampleStranger) ++ [.datagram [2] sampleServer]
  | .ipv6 => []

/-- Behind 31 datagrams the reply is found. -/
theorem none_means_drained_iff_example :
    ({ ipv6 := false, remotePeers := {sampleServer} } : DirectDatagramAssociation).NoneMeansDrained
      16 (sampleQueues 31) := by
  refine (none_means_drained_iff _ _ (by decide)).mpr fun _ =>
    ⟨.ipv4, trivial, .datagram [2] sampleServer, ?_, ?_⟩
  · simp [sampleQueues, maxUntrustedDrainPerReceive]
  · exact fun stranger => stranger (Finset.mem_singleton_self _)

/-- Behind 32 it is not: an association that has sent to the server reports that nothing is there,
and leaves the reply in the queue. -/
theorem reply_behind_strangers :
    ∃ calls association, Serves false calls association ∧ ∃ queues queues',
    Ends Answers (association.receive 16) queues (.ok none) queues' ∧
      .datagram [2] sampleServer ∈ queues .ipv4 ∧ association.Trusted (.datagram [2] sampleServer) ∧
      queues' .ipv4 = [.datagram [2] sampleServer] ∧ ¬ association.NoneMeansDrained 16 queues := by
  obtain ⟨result, queues', ends⟩ :=
    receive_ends { ipv6 := false, remotePeers := {sampleServer} } 16 (sampleQueues 32)
  obtain ⟨none_iff, left⟩ := receive_none_iff (by decide) ends
  have strangers : (sampleQueues 32 .ipv4).take maxUntrustedDrainPerReceive =
      List.replicate 32 (.datagram [] sampleStranger) := rfl
  have reported : result = .ok none := by
    refine none_iff.mpr fun socket has pending early => ?_
    cases socket with
    | ipv4 =>
        rw [strangers] at early
        rw [List.eq_of_mem_replicate early]
        exact fun no => absurd (Finset.mem_singleton.mp no) (by decide)
    | ipv6 => cases has
  have waits : .datagram [2] sampleServer ∈ sampleQueues 32 .ipv4 :=
    List.mem_append_right _ List.mem_cons_self
  have trusted :
      ({ ipv6 := false, remotePeers := {sampleServer} } : DirectDatagramAssociation).Trusted
          (.datagram [2] sampleServer) :=
    Finset.mem_singleton_self _
  have behind := left reported .ipv4 trivial
  subst reported
  exact ⟨_, _, sample_serves, _, _, ends, waits, trusted, behind,
    fun drained => drained _ ends .ipv4 trivial _ waits trusted⟩

end DirectDatagramAssociation

end Commeatus.Daemon
