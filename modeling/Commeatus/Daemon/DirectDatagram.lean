import Commeatus.Daemon.Candidates
import Commeatus.Daemon.Datagram

/-!
DIRECT datagram execution (`daemon/src/datagram.rs`).

The association sends from its own sockets, one for each family, and lets in
only what comes from an address it has sent a whole datagram to. Its calls are
programs of atomic actions, whose answers are up to the resolver and to the
kernel.
-/

namespace Commeatus.Daemon

open Commeatus.Lib Commeatus.Core Commeatus.Dns
open Prog

def maxDatagramRemotePeers : Nat := 256
def maxUntrustedDrainPerReceive : Nat := 32

/-- A socket address as addresses are compared: the flow label of an IPv6 address counts, and is
zero unless the kernel says otherwise. -/
structure PeerAddr extends ScopedAddr where
  flowinfo : UInt32 := 0
  deriving DecidableEq

def PeerAddr.ofScoped (address : ScopedAddr) : PeerAddr := { address with }

inductive DirectSocket where
  | ipv4 | ipv6
  deriving DecidableEq

/-- What a call asks of the resolver and of the kernel. -/
inductive DirectAction where
  | resolve (domain : Str)
  | sendTo (socket : DirectSocket) (payload : Bytes) (address : PeerAddr)
  | recvFrom (socket : DirectSocket) (limit : Nat)

/-- A send answers how many octets went out; a receive, what was written to the buffer and where it
came from. -/
abbrev DirectAnswer : DirectAction → Type
  | .resolve _ => Resolved
  | .sendTo _ _ _ => Except IoError Nat
  | .recvFrom _ _ => Except IoError (Bytes × PeerAddr)

abbrev DirectM : Type → Type := Prog DirectAction DirectAnswer

abbrev DirectEvent : Type := Event DirectAction DirectAnswer

/-- `ipv6` says whether the IPv6 socket could be bound. -/
structure DirectDatagramAssociation where
  ipv6 : Bool
  remotePeers : Finset PeerAddr := ∅

namespace DirectDatagramAssociation

abbrev performSend (socket : DirectSocket) (payload : Bytes) (address : PeerAddr) :
    DirectM (Except IoError Nat) :=
  perform (DirectAction.sendTo socket payload address)

abbrev performReceive (socket : DirectSocket) (limit : Nat) :
    DirectM (Except IoError (Bytes × PeerAddr)) :=
  perform (DirectAction.recvFrom socket limit)

/-- The send on the socket of the address's family. -/
def sendByFamily (association : DirectDatagramAssociation) (address : PeerAddr) (payload : Bytes) :
    DirectM (Except IoError Nat) :=
  match address.ip with
  | .v4 _ => performSend .ipv4 payload address
  | .v6 _ =>
      if association.ipv6 then performSend .ipv6 payload address
      else return .error ⟨.addrNotAvailable, "IPv6 datagram socket is unavailable on this platform"⟩

/-- What follows the send: only a whole datagram makes a peer. -/
def afterSend (association : DirectDatagramAssociation) (address : PeerAddr) (payload : Bytes) :
    Except IoError Nat → Except IoError Unit × DirectDatagramAssociation
  | .error e => (.error e, association)
  | .ok sent =>
      if sent ≠ payload.length then
        (.error ⟨.writeZero, "UDP socket reported a partial datagram send"⟩, association)
      else (.ok (), { association with remotePeers := insert address association.remotePeers })

def sendToResolved (association : DirectDatagramAssociation)
    (address : PeerAddr) (payload : Bytes) :
    DirectM (Except IoError Unit × DirectDatagramAssociation) :=
  if address ∉ association.remotePeers ∧ maxDatagramRemotePeers ≤ association.remotePeers.card then
    return (.error ⟨.quotaExceeded, "datagram association remote peer limit 256 reached"⟩,
      association)
  else do
    let sent ← association.sendByFamily address payload
    return association.afterSend address payload sent

/-- The loop over the addresses, with the last error. -/
def sendToAny (payload : Bytes) : List PeerAddr → Option IoError → DirectDatagramAssociation →
    DirectM (Except IoError Unit × DirectDatagramAssociation)
  | [], lastError, association =>
      return (.error (lastError.getD
        ⟨.addrNotAvailable, "datagram target resolved to no usable address"⟩), association)
  | address :: addresses, _, association => do
      let (result, association) ← association.sendToResolved address payload
      match result with
      | .ok () => return (.ok (), association)
      | .error e => sendToAny payload addresses (some e) association

def send (association : DirectDatagramAssociation) (target : Target) (payload : Bytes) :
    DirectM (Except IoError Unit × DirectDatagramAssociation) := do
  match ← resolveTarget (fun domain => perform (DirectAction.resolve domain)) target with
  | .error e => return (.error e, association)
  | .ok addresses => sendToAny payload (addresses.map .ofScoped) none association

/-- The loop of `receive_from_socket`, with the number of reads that are left. -/
def receiveFromSocket (socket : DirectSocket) (remotePeers : Finset PeerAddr) (limit : Nat) :
    Nat → DirectM (Except IoError (Option ReceivedDatagram))
  | 0 => return .ok none
  | reads + 1 => do
      match ← performReceive socket limit with
      | .ok (payload, source) =>
          if source ∉ remotePeers then receiveFromSocket socket remotePeers limit reads
          else
            return (Target.new (.ip source.ip) source.port).map fun target => some ⟨target, payload⟩
      | .error e =>
          if e.kind = .wouldBlock then return .ok none
          else if e.kind = .interrupted then receiveFromSocket socket remotePeers limit reads
          else return .error e

/-- `limit` is the length of the caller's buffer. -/
def receive (association : DirectDatagramAssociation) (limit : Nat) :
    DirectM (Except IoError (Option ReceivedDatagram)) :=
  if limit = 0 then
    return .error ⟨.invalidInput, "datagram receive buffer must not be empty"⟩
  else do
    match ← receiveFromSocket .ipv4 association.remotePeers limit maxUntrustedDrainPerReceive with
    | .error e => return .error e
    | .ok (some received) => return .ok (some received)
    | .ok none =>
        if association.ipv6 then
          receiveFromSocket .ipv6 association.remotePeers limit maxUntrustedDrainPerReceive
        else return .ok none

/-! ### One call -/

/-- One of the events is the send of a whole datagram to the address. -/
def Delivers (events : List DirectEvent) (address : PeerAddr) : Prop :=
  ∃ socket payload, (⟨.sendTo socket payload address, .ok payload.length⟩ : DirectEvent) ∈ events

/-- All that a send can do: it fails and nothing was delivered, or it delivers to one address, which
is then a peer. -/
inductive Sends (association : DirectDatagramAssociation) (events : List DirectEvent) :
    Except IoError Unit × DirectDatagramAssociation → Prop where
  | failed (e : IoError) (none : ∀ address, ¬ Delivers events address) :
      Sends association events (.error e, association)
  | delivered (address : PeerAddr) (only : ∀ x, Delivers events x ↔ x = address)
      (room : address ∈ association.remotePeers ∨ association.remotePeers.card <
        maxDatagramRemotePeers) :
      Sends association events
        (.ok (), { association with remotePeers := insert address association.remotePeers })

variable {association association' : DirectDatagramAssociation}
    {address : PeerAddr} {payload : Bytes}
  {events : List DirectEvent} {outcome : Except IoError Unit × DirectDatagramAssociation}

theorem not_delivers_nil : ¬ Delivers [] address := fun ⟨_, _, no⟩ => nomatch no

theorem delivers_append {before after : List DirectEvent} :
    Delivers (before ++ after) address ↔ Delivers before address ∨ Delivers after address := by
  constructor
  · rintro ⟨socket, payload, member⟩
    rcases List.mem_append.mp member with first | later
    · exact .inl ⟨socket, payload, first⟩
    · exact .inr ⟨socket, payload, later⟩
  · rintro (⟨socket, payload, member⟩ | ⟨socket, payload, member⟩)
    · exact ⟨socket, payload, List.mem_append_left _ member⟩
    · exact ⟨socket, payload, List.mem_append_right _ member⟩

/-- The send on a socket is the event of its answer, if there is a socket. -/
theorem sendByFamily_events {sent : Except IoError Nat}
    (path : Path (association.sendByFamily address payload) events (.done sent)) :
    (events = [] ∧ ∃ e, sent = .error e) ∨ ∃ socket,
      events = [⟨.sendTo socket payload address, sent⟩] := by
  unfold sendByFamily at path
  split at path
  · exact .inr ⟨.ipv4, path.perform_done⟩
  · split at path
    · exact .inr ⟨.ipv6, path.perform_done⟩
    · obtain ⟨rfl, same⟩ := path.done_cases
      cases same
      exact .inl ⟨rfl, _, rfl⟩

theorem sendToResolved_sends
    (path : Path (association.sendToResolved address payload) events (.done outcome)) :
    Sends association events outcome := by
  unfold sendToResolved at path
  split at path
  · obtain ⟨rfl, same⟩ := path.done_cases
    cases same
    exact .failed _ fun _ => not_delivers_nil
  · rename_i room
    have room : address ∈ association.remotePeers ∨ association.remotePeers.card <
        maxDatagramRemotePeers := by
      rw [not_and_or, not_not, not_le] at room
      exact room
    obtain ⟨before, after, sent, rfl, first, rest⟩ := path.bind_done
    obtain ⟨rfl, same⟩ := rest.done_cases
    cases same
    rw [List.append_nil]
    rcases sendByFamily_events first with ⟨rfl, e, rfl⟩ | ⟨socket, rfl⟩
    · exact .failed e fun _ => not_delivers_nil
    · cases sent with
      | error e =>
          refine .failed e ?_
          rintro address ⟨socket', payload', member⟩
          cases List.mem_singleton.mp member
      | ok sent =>
          rw [afterSend]
          split
          · rename_i part
            refine .failed _ ?_
            rintro address ⟨socket', payload', member⟩
            cases List.mem_singleton.mp member
            exact part rfl
          · rename_i whole
            rw [not_not] at whole
            subst whole
            refine .delivered address (fun x => ⟨?_, ?_⟩) room
            · rintro ⟨socket', payload', member⟩
              cases List.mem_singleton.mp member
              rfl
            · rintro rfl
              exact ⟨socket, payload, List.mem_singleton_self _⟩

theorem sendToAny_sends {addresses : List PeerAddr} {lastError : Option IoError}
    (path : Path (sendToAny payload addresses lastError association) events (.done outcome)) :
    Sends association events outcome := by
  induction addresses generalizing lastError events with
  | nil =>
      obtain ⟨rfl, same⟩ := path.done_cases
      cases same
      exact .failed _ fun _ => not_delivers_nil
  | cons address addresses ih =>
      obtain ⟨before, after, first, rfl, tried, rest⟩ := path.bind_done
      cases sendToResolved_sends tried with
      | failed e none =>
          -- The next address is tried with the association as it was.
          cases ih rest with
          | failed e' none' =>
              refine .failed e' fun x => ?_
              rw [delivers_append, not_or]
              exact ⟨none x, none' x⟩
          | delivered peer only room =>
              refine .delivered peer (fun x => ?_) room
              rw [delivers_append, ← only x, or_iff_right (none x)]
      | delivered peer only room =>
          obtain ⟨rfl, same⟩ := rest.done_cases
          cases same
          rw [List.append_nil]
          exact .delivered peer only room

theorem resolveTarget_silent {target : Target} {resolved : Except IoError (List ScopedAddr)}
    (path :
      Path (resolveTarget (fun domain => perform (DirectAction.resolve domain)) target : DirectM _)
        events
      (.done resolved)) (address : PeerAddr) : ¬ Delivers events address := by
  unfold resolveTarget at path
  split at path
  · obtain ⟨before, after, answer, rfl, asked, rest⟩ := path.bind_done
    obtain ⟨rfl, -⟩ := rest.done_cases
    rw [asked.perform_done, List.append_nil]
    rintro ⟨socket, payload, member⟩
    cases List.mem_singleton.mp member
  · obtain ⟨rfl, -⟩ := path.done_cases
    exact not_delivers_nil

theorem send_sends {target : Target}
    (path : Path (association.send target payload) events (.done outcome)) :
    Sends association events outcome := by
  obtain ⟨before, after, resolved, rfl, asked, rest⟩ := path.bind_done
  have silent := resolveTarget_silent asked
  cases resolved with
  | error e =>
      obtain ⟨rfl, same⟩ := rest.done_cases
      cases same
      rw [List.append_nil]
      exact .failed e silent
  | ok addresses =>
      cases sendToAny_sends rest with
      | failed e none =>
          refine .failed e fun x => ?_
          rw [delivers_append, not_or]
          exact ⟨silent x, none x⟩
      | delivered peer only room =>
          refine .delivered peer (fun x => ?_) room
          rw [delivers_append, ← only x, or_iff_right (silent x)]

/-- The datagram came from the address, on some socket. -/
def CameFrom (events : List DirectEvent) (datagram : ReceivedDatagram) (source : PeerAddr) : Prop :=
  datagram.source.host = .ip source.ip ∧ datagram.source.port = source.port ∧
    ∃ socket limit, (⟨.recvFrom socket limit, .ok (datagram.payload, source)⟩ : DirectEvent) ∈
      events

theorem CameFrom.append_left {datagram : ReceivedDatagram} {source : PeerAddr}
    (came : CameFrom events datagram source)
    (before : List DirectEvent) : CameFrom (before ++ events) datagram source := by
  obtain ⟨host, port, socket, limit, member⟩ := came
  exact ⟨host, port, socket, limit, List.mem_append_right _ member⟩

theorem receiveFromSocket_peer {socket : DirectSocket}
    {remotePeers : Finset PeerAddr} {limit reads : Nat}
    {datagram : ReceivedDatagram}
    (path : Path (receiveFromSocket socket remotePeers limit reads) events
      (.done (.ok (some datagram)))) :
    ∃ source ∈ remotePeers, CameFrom events datagram source := by
  induction reads generalizing events with
  | zero => cases path
  | succ reads ih =>
      obtain ⟨before, after, answer, rfl, read, rest⟩ := path.bind_done
      cases answer with
      | error e =>
          dsimp only at rest
          split at rest
          · cases rest
          · split at rest
            · obtain ⟨source, peer, came⟩ := ih rest
              exact ⟨source, peer, came.append_left before⟩
            · cases rest
      | ok received =>
          obtain ⟨payload, source⟩ := received
          dsimp only at rest
          split at rest
          · obtain ⟨source', peer, came⟩ := ih rest
            exact ⟨source', peer, came.append_left before⟩
          · rename_i peer
            rw [not_not] at peer
            obtain ⟨rfl, same⟩ := rest.done_cases
            cases made : Target.new (.ip source.ip) source.port with
            | error e =>
                rw [made] at same
                cases same
            | ok target =>
                rw [made] at same
                cases same
                obtain ⟨host, port⟩ := Target.new_eq_ok made
                rw [read.perform_done]
                exact ⟨source, peer, host, port, socket, limit, List.mem_cons_self⟩

theorem receive_peer {limit : Nat} {datagram : ReceivedDatagram}
    (path : Path (association.receive limit) events (.done (.ok (some datagram)))) :
    ∃ source ∈ association.remotePeers, CameFrom events datagram source := by
  unfold receive at path
  split at path
  · cases path
  · obtain ⟨before, after, first, rfl, read, rest⟩ := path.bind_done
    match first with
    | .error e => cases rest
    | .ok (some received) =>
        obtain ⟨rfl, same⟩ := rest.done_cases
        cases same
        rw [List.append_nil]
        exact receiveFromSocket_peer read
    | .ok none =>
        dsimp only at rest
        split at rest
        · obtain ⟨source, peer, came⟩ := receiveFromSocket_peer rest
          exact ⟨source, peer, came.append_left before⟩
        · cases rest

/-! ### All calls -/

/-- A call with all that it did and how it ended. -/
inductive Call where
  | send (target : Target) (payload : Bytes) (events : List DirectEvent)
      (result : Except IoError Unit)
  | receive (limit : Nat) (events : List DirectEvent)
      (result : Except IoError (Option ReceivedDatagram))

/-- Calls that one association has served, in order, and what is then left of it. -/
inductive Serves (ipv6 : Bool) : List Call → DirectDatagramAssociation → Prop where
  | new : Serves ipv6 [] { ipv6 }
  | send {calls : List Call} {association association' : DirectDatagramAssociation}
      (earlier : Serves ipv6 calls association)
      {target : Target} {payload : Bytes} {events : List DirectEvent} {result : Except IoError Unit}
      (path : Path (association.send target payload) events (.done (result, association'))) :
      Serves ipv6 (calls ++ [.send target payload events result]) association'
  | receive {calls : List Call} {association : DirectDatagramAssociation}
      (earlier : Serves ipv6 calls association)
      {limit : Nat} {events : List DirectEvent} {result : Except IoError (Option ReceivedDatagram)}
      (path : Path (association.receive limit) events (.done result)) :
      Serves ipv6 (calls ++ [.receive limit events result]) association

/-- Some earlier send delivered a whole datagram to the address. -/
def Delivered (calls : List Call) (address : PeerAddr) : Prop :=
  ∃ target payload events result, .send target payload events result ∈ calls ∧
    Delivers events address

theorem delivered_send {calls : List Call} {target : Target} {result : Except IoError Unit} :
    Delivered (calls ++ [.send target payload events result]) address ↔ Delivered calls address ∨
    Delivers events address := by
  constructor
  · rintro ⟨target', payload', events', result', member, delivers⟩
    rcases List.mem_append.mp member with old | new
    · exact .inl ⟨_, _, _, _, old, delivers⟩
    · cases List.mem_singleton.mp new
      exact .inr delivers
  · rintro (⟨target', payload', events', result', member, delivers⟩ | delivers)
    · exact ⟨_, _, _, _, List.mem_append_left _ member, delivers⟩
    · exact ⟨_, _, _, _, List.mem_append_right _ (List.mem_singleton_self _), delivers⟩

theorem delivered_receive {calls : List Call} {limit : Nat}
    {result : Except IoError (Option ReceivedDatagram)} :
    Delivered (calls ++ [.receive limit events result]) address ↔ Delivered calls address := by
  constructor
  · rintro ⟨target', payload', events', result', member, delivers⟩
    rcases List.mem_append.mp member with old | new
    · exact ⟨_, _, _, _, old, delivers⟩
    · cases List.mem_singleton.mp new
  · rintro ⟨target', payload', events', result', member, delivers⟩
    exact ⟨_, _, _, _, List.mem_append_left _ member, delivers⟩

variable {ipv6 : Bool} {calls : List Call}

/-- The peers are the addresses that a whole datagram was delivered to, and there are at most
256. -/
theorem peers_of_serves (serves : Serves ipv6 calls association) :
    (∀ address, address ∈ association.remotePeers ↔ Delivered calls address) ∧
      association.remotePeers.card ≤ maxDatagramRemotePeers := by
  induction serves with
  | new =>
      exact ⟨fun address =>
        ⟨fun no => absurd no (Finset.notMem_empty _), fun ⟨_, _, _, _, no, _⟩ => nomatch no⟩,
          Nat.zero_le _⟩
  | send earlier path ih =>
      obtain ⟨peers, few⟩ := ih
      cases send_sends path with
      | failed e none =>
          refine ⟨fun address => ?_, few⟩
          rw [delivered_send, or_iff_left (none address)]
          exact peers address
      | delivered peer only room =>
          refine ⟨fun address => ?_, ?_⟩
          · rw [delivered_send, only, Finset.mem_insert, peers, or_comm]
          · rcases room with known | room
            · rwa [Finset.insert_eq_self.mpr known]
            · exact Nat.le_trans (Finset.card_insert_le _ _) room
  | receive earlier path ih =>
      refine ⟨fun address => ?_, ih.2⟩
      rw [delivered_receive]
      exact ih.1 address

/-- A datagram that a call returned came from an address that an earlier call had delivered a whole
datagram to. -/
theorem received_of_serves (serves : Serves ipv6 calls association)
    {before after : List Call} {limit : Nat}
    {events : List DirectEvent} {datagram : ReceivedDatagram}
    (split : calls = before ++ .receive limit events (.ok (some datagram)) :: after) :
    ∃ source, CameFrom events datagram source ∧ Delivered before source := by
  induction serves generalizing after with
  | new => exact absurd split (by simp)
  | send earlier path ih =>
      cases after using List.reverseRecOn with
      | nil =>
          obtain ⟨-, last⟩ := List.append_inj' split rfl
          cases last
      | append_singleton after last =>
          rw [← List.cons_append, ← List.append_assoc] at split
          exact ih (List.append_inj' split rfl).1
  | receive earlier path ih =>
      cases after using List.reverseRecOn with
      | nil =>
          obtain ⟨rfl, last⟩ := List.append_inj' split rfl
          cases last
          obtain ⟨source, peer, came⟩ := receive_peer path
          exact ⟨source, came, ((peers_of_serves earlier).1 source).mp peer⟩
      | append_singleton after last =>
          rw [← List.cons_append, ← List.append_assoc] at split
          exact ih (List.append_inj' split rfl).1

/-- Whatever calls an association has served, with whatever answers of the resolver and of the
kernel: what it returned came from addresses that an earlier send had delivered a whole datagram to;
its peers are exactly those addresses, at most 256; and a further send only adds to them, nothing
when it fails. -/
theorem direct_replies_are_solicited (serves : Serves ipv6 calls association) :
    (∀ before after limit events datagram,
      calls = before ++ .receive limit events (.ok (some datagram)) :: after →
      ∃ source, CameFrom events datagram source ∧ Delivered before source) ∧
    (∀ address, address ∈ association.remotePeers ↔ Delivered calls address) ∧
    association.remotePeers.card ≤ maxDatagramRemotePeers ∧
    ∀ target payload events result association',
      Path (association.send target payload) events (.done (result, association')) →
      association.remotePeers ⊆ association'.remotePeers ∧
        ∀ e, result = .error e → association'.remotePeers = association.remotePeers := by
  obtain ⟨peers, few⟩ := peers_of_serves serves
  refine ⟨fun before after limit events datagram => received_of_serves serves, peers, few, ?_⟩
  intro target payload events result association' path
  cases send_sends path with
  | failed e none => exact ⟨Finset.Subset.refl _, fun _ _ => rfl⟩
  | delivered peer only room => exact ⟨Finset.subset_insert _ _, fun e no => nomatch no⟩

def sampleServer : PeerAddr := { ip := .v4 ⟨192, 0, 2, 1⟩, port := 53 }

def sampleTarget : Target := ⟨.ip sampleServer.ip, 53, dnsPort_ne_zero⟩

/-- A datagram goes out whole, and the answer comes back. -/
def sampleCalls : List Call :=
  [.send sampleTarget [1] [⟨.sendTo .ipv4 [1] sampleServer, .ok 1⟩] (.ok ()),
    .receive 16 [⟨.recvFrom .ipv4 16, .ok ([2], sampleServer)⟩] (.ok (some ⟨sampleTarget, [2]⟩))]

theorem sample_serves :
    Serves false sampleCalls { ipv6 := false, remotePeers := {sampleServer} } := by
  have sent : Path (({ ipv6 := false } : DirectDatagramAssociation).send sampleTarget [1])
      [⟨.sendTo .ipv4 [1] sampleServer, .ok 1⟩]
          (.done (.ok (), { ipv6 := false, remotePeers := {sampleServer} })) :=
    .once rfl rfl
  have received : Path
      (({ ipv6 := false, remotePeers := {sampleServer} } : DirectDatagramAssociation).receive 16)
      [⟨.recvFrom .ipv4 16, .ok ([2], sampleServer)⟩] (.done (.ok (some ⟨sampleTarget, [2]⟩))) :=
    .once rfl rfl
  exact (Serves.new.send sent).receive received

/-- The reply is solicited, the server is the only peer, and a send that the kernel refuses changes
nothing. -/
theorem direct_replies_are_solicited_example :
    (∃ source, CameFrom [⟨.recvFrom .ipv4 16, .ok ([2], sampleServer)⟩] ⟨sampleTarget, [2]⟩ source ∧
      Delivered (sampleCalls.take 1) source ∧ source = sampleServer) ∧
    (∀ address, Delivered sampleCalls address ↔ address = sampleServer) ∧
    ({sampleServer} : Finset PeerAddr).card ≤ maxDatagramRemotePeers ∧
    ∃ association',
      Path (({ ipv6 := false, remotePeers := {sampleServer} } : DirectDatagramAssociation).send
        sampleTarget [3])
          [⟨.sendTo .ipv4 [3] sampleServer, .error ⟨.other, "network is down"⟩⟩]
          (.done (.error ⟨.other, "network is down"⟩, association')) ∧
        association'.remotePeers = {sampleServer} := by
  have refused : Path
      (({ ipv6 := false, remotePeers := {sampleServer} } : DirectDatagramAssociation).send
        sampleTarget [3])
      [⟨.sendTo .ipv4 [3] sampleServer, .error ⟨.other, "network is down"⟩⟩]
      (.done (.error ⟨.other, "network is down"⟩,
        { ipv6 := false, remotePeers := {sampleServer} })) :=
    .once rfl rfl
  obtain ⟨solicited, peers, few, later⟩ := direct_replies_are_solicited sample_serves
  refine ⟨?_, fun address => ?_, few, _, refused, (later sampleTarget [3] _ _ _ refused).2 _ rfl⟩
  · obtain ⟨source, came, delivered⟩ := solicited [_] [] 16 _ _ rfl
    refine ⟨source, came, delivered, ?_⟩
    obtain ⟨-, -, socket, limit, member⟩ := came
    cases List.mem_singleton.mp member
    rfl
  · rw [← peers address]
    exact Finset.mem_singleton

end DirectDatagramAssociation

end Commeatus.Daemon
