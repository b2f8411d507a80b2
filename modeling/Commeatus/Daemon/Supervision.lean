import Commeatus.Daemon.ConfigFile
import Commeatus.Daemon.TransparentUdp
import Mathlib.Data.List.Induction

/-!
The supervision of listeners (`Server::bind`, `Server::run` and `serve_forever`
in `daemon/src/server.rs`).

Every listener runs in a thread of its own and reports its end on a channel;
the server waits for the first report. A TCP listener ends only after eight
failures of `accept` since the last connection; interruptions do not count.
The threads and the server take turns in any order, and a thread may also end
by a panic, without a report.
-/

namespace Commeatus.Daemon

open Commeatus.Lib

def acceptErrorRetryLimit : Nat := 8

inductive BoundListener where
  | tcp (protocol : ListenerProtocol)
  | tproxyUdp (address : ScopedAddr)
  deriving DecidableEq

/-- What `BoundListener::address` can return: a TCP listener asks its socket. -/
inductive BoundListener.Address : BoundListener → Except IoError ScopedAddr → Prop where
  | tcp (protocol : ListenerProtocol) (answer : Except IoError ScopedAddr) :
      Address (.tcp protocol) answer
  | tproxyUdp (address : ScopedAddr) : Address (.tproxyUdp address) (.ok address)

/-- The binders of the protocols. -/
structure Binders where
  transparentUdp : ScopedAddr → Except IoError Unit
  transparentTcp : ScopedAddr → Except IoError Unit
  tcp : ScopedAddr → Except IoError Unit

def Binders.bindListener (binders : Binders) (listener : ListenerConfig) :
    Except IoError BoundListener :=
  match listener.protocol with
  | .tproxyUdp => do
      binders.transparentUdp listener.address
      return .tproxyUdp listener.address
  | .tproxyTcp => do
      binders.transparentTcp listener.address
      return .tcp listener.protocol
  | .socks5 | .httpConnect => do
      binders.tcp listener.address
      return .tcp listener.protocol

/-- `Server::bind`: the listeners in their order, up to the first that cannot be bound. -/
def Binders.bind (binders : Binders) (listeners : List ListenerConfig) :
    Except IoError (List BoundListener) :=
  listeners.mapM binders.bindListener

/-- A server that was bound has the listeners of its configuration, in their order. -/
theorem Binders.bind_eq_ok {binders : Binders} {configs : List ListenerConfig}
    {listeners : List BoundListener}
    (bound : binders.bind configs = .ok listeners) :
    List.Forall₂ (fun config listener => binders.bindListener config = .ok listener)
      configs listeners := by
  unfold bind at bound
  induction configs generalizing listeners with
  | nil =>
      cases bound
      exact .nil
  | cons config configs ih =>
      rw [List.mapM_cons] at bound
      obtain ⟨listener, first, bound⟩ := bind_eq_ok_iff.mp bound
      obtain ⟨rest, later, bound⟩ := bind_eq_ok_iff.mp bound
      cases bound
      exact .cons first (ih later)

namespace TransparentUdp

variable {ε ω : Type} {env : Env ω} {runtime : Core.Runtime} {outbounds : Outbounds ε ω}

/-- A point of the loop that goes on. -/
def Point.Loops : Point → Prop
  | .returned _ => False
  | _ => True

theorem answer_loops {token burst : Nat} {client : SocketAddr} {ready : List (Nat × SocketAddr)}
    {received : Option ReceivedDatagram} {point : Point} {s s' : Listener ε ω}
    (answered : answer env token client ready burst received s = some (.ok point, s')) :
    point.Loops := by
  cases received with
  | none =>
      cases answered
      trivial
  | some received =>
      rcases Run.bind_eq_some answered with ⟨sent, s₁, -, touched⟩ | ⟨e, -, no⟩
      · rcases Run.bind_eq_some touched with ⟨_, s₂, -, last⟩ | ⟨e, -, no⟩
        · cases last
          trivial
        · cases no
      · cases no

theorem proceed_loops {point point' : Point} {s s' : Listener ε ω} (loops : point.Loops)
    (proceeded : proceed env runtime outbounds point s = some (.ok point', s')) : point'.Loops := by
  cases point with
  | returned result => exact loops.elim
  | top =>
      rcases Run.bind_eq_some proceeded with ⟨now, s₁, -, polled⟩ | ⟨e, -, no⟩
      · dsimp only at polled
        split at polled
        · split at polled <;> cases polled
          trivial
        · cases polled
          trivial
      · cases no
  | inbound burst events =>
      cases burst with
      | zero =>
          cases proceeded
          trivial
      | succ burst =>
          cases receiveInbound_cases env runtime outbounds proceeded with
          | drained | arrived => trivial
  | outbound ready burst =>
      cases ready with
      | nil =>
          cases proceeded
          trivial
      | cons first ready =>
          obtain ⟨token, client⟩ := first
          cases burst with
          | zero =>
              cases proceeded
              trivial
          | succ burst =>
              cases found : s.clients.lookup client with
              | none =>
                  simp only [proceed, found] at proceeded
                  cases proceeded
                  trivial
              | some state =>
                  rw [proceed_receive env runtime outbounds found] at proceeded
                  rcases Run.bind_eq_some proceeded with ⟨received, s₁, -, answered⟩ | ⟨e, -, no⟩
                  · exact answer_loops answered
                  · cases no

/-- The loop does not return but with an error. -/
theorem Reaches.returned_error {Meets : Point → Listener ε ω → Prop}
    {start s : Listener ε ω} {point : Point}
    (reached : Reaches env runtime outbounds Meets start point s) :
    point.Loops ∨ ∃ e, point = .returned (.error e) := by
  induction reached with
  | start => exact .inl trivial
  | step earlier meets stepped ih =>
      rcases step_cases env runtime outbounds stepped with proceeded | ⟨e, rfl, -⟩
      · rcases ih with loops | ⟨e, rfl⟩
        · exact .inl (proceed_loops loops proceeded)
        · cases proceeded
          exact .inr ⟨e, rfl⟩
      · exact .inr ⟨e, rfl⟩

/-- What `serve_forever` can return: the error of a call before its loop, or what the loop
returns. -/
inductive Served : Except IoError Unit → Prop where
  | unprepared (e : IoError) : Served (.error e)
  | looped {ε ω : Type} {env : Env ω} {runtime : Core.Runtime} {outbounds : Outbounds ε ω}
      {start s : Listener ε ω} {result : Except IoError Unit}
      (reached : Reaches env runtime outbounds (fun _ _ => True) start (.returned result) s) :
        Served result

theorem Served.error {result : Except IoError Unit} (served : Served result) :
    ∃ e, result = .error e := by
  cases served with
  | unprepared e => exact ⟨e, rfl⟩
  | looped reached =>
      rcases reached.returned_error with loops | ⟨e, same⟩
      · exact loops.elim
      · cases same
        exact ⟨e, rfl⟩

end TransparentUdp

namespace Supervision

variable {κ : Type}

/-! ### The accept loop -/

/-- The error counts for the retry limit. -/
def counts : Except IoError κ → Bool
  | .ok _ => false
  | .error e => e.kind ≠ .interrupted

/-- One round of `serve_forever`: the counter after what `accept` returned, or the error that the
loop gives up with. -/
def afterAccept (consecutiveErrors : Nat) : Except IoError κ → Except IoError Nat
  | .ok _ => .ok 0
  | .error e =>
      if e.kind = .interrupted then .ok consecutiveErrors
      else if acceptErrorRetryLimit ≤ consecutiveErrors + 1 then .error e
      else .ok (consecutiveErrors + 1)

/-- Since the last connection, `accept` has failed the given number of times; interruptions do not
count. -/
structure FailedSince (accepts : List (Except IoError κ)) (failures : Nat) : Prop where
  split : ∃ before after, accepts = before ++ after ∧
    (before = [] ∨ ∃ connection, before.getLast? = some (.ok connection)) ∧
    (∀ accepted ∈ after, accepted.isOk = false) ∧ after.countP counts = failures

theorem failedSince_nil : FailedSince ([] : List (Except IoError κ)) 0 :=
  ⟨[], [], rfl, .inl rfl, by simp, rfl⟩

theorem failedSince_connection (accepts : List (Except IoError κ)) (connection : κ) :
    FailedSince (accepts ++ [.ok connection]) 0 :=
  ⟨accepts ++ [.ok connection], [], by simp, .inr ⟨connection, by simp⟩, by simp, rfl⟩

theorem FailedSince.failed {accepts : List (Except IoError κ)} {failures : Nat}
    (failed : FailedSince accepts failures)
    (e : IoError) :
    FailedSince (accepts ++ [.error e]) (failures + if e.kind = .interrupted then 0 else 1) := by
  obtain ⟨before, after, rfl, last, errors, counted⟩ := failed.split
  refine ⟨before, after ++ [.error e], by simp, last, fun accepted member => ?_, ?_⟩
  · rcases List.mem_append.mp member with earlier | now
    · exact errors accepted earlier
    · rw [List.mem_singleton.mp now]
      rfl
  · by_cases interrupted : e.kind = .interrupted
    · simp [counts, counted, interrupted]
    · simp [counts, counted, interrupted]

/-- What `serve_forever` knows when it goes on. -/
theorem afterAccept_eq_ok {accepts : List (Except IoError κ)} {errors errors' : Nat}
    {accepted : Except IoError κ}
    (failed : FailedSince accepts errors) (few : errors < acceptErrorRetryLimit)
    (goes : afterAccept errors accepted = .ok errors') :
    FailedSince (accepts ++ [accepted]) errors' ∧ errors' < acceptErrorRetryLimit := by
  cases accepted with
  | ok connection =>
      cases goes
      exact ⟨failedSince_connection accepts connection, by decide⟩
  | error e =>
      have more := failed.failed e
      simp only [afterAccept] at goes
      split at goes
      · rename_i interrupted
        cases goes
        rw [if_pos interrupted] at more
        exact ⟨more, few⟩
      · rename_i counted
        split at goes
        · cases goes
        · cases goes
          rw [if_neg counted] at more
          exact ⟨more, by omega⟩

/-- When it gives up: at the eighth failure. -/
theorem afterAccept_eq_error {accepts : List (Except IoError κ)} {errors : Nat}
    {accepted : Except IoError κ} {e : IoError}
    (failed : FailedSince accepts errors) (few : errors < acceptErrorRetryLimit)
    (ends : afterAccept errors accepted = .error e) :
    accepted = .error e ∧ e.kind ≠ .interrupted ∧
    FailedSince (accepts ++ [accepted]) acceptErrorRetryLimit := by
  cases accepted with
  | ok connection => cases ends
  | error e' =>
      have more := failed.failed e'
      simp only [afterAccept] at ends
      split at ends
      · cases ends
      · rename_i counted
        split at ends
        · rename_i reached
          cases ends
          rw [if_neg counted] at more
          have eighth : errors + 1 = acceptErrorRetryLimit := by omega
          exact ⟨rfl, counted, eighth ▸ more⟩
        · cases ends

/-! ### Listeners and their server -/

/-- Where the thread of a listener is: not created yet, in `serve_forever`, about to report its end,
or gone. -/
inductive ListenerThread where
  | unstarted
  | serving (address : ScopedAddr) (consecutiveErrors : Nat)
  | exited (address : ScopedAddr) (result : Except IoError Unit)
  | ended

/-- Where `run` is: at a listener that it starts, waiting for a report, or back with its result. -/
inductive Running where
  | starting (next : Nat)
  | receiving
  | returned (result : Except IoError Unit)

/-- How a listener ended. -/
abbrev Report : Type := ScopedAddr × Except IoError Unit

/-- The server and the threads of its listeners. `accepts` has what `accept` returned so far; `sent`
has all reports, and `queue` those that were not received; `refused` has the listener that could not
be started, with the error of the call that failed. -/
structure State (κ : Type) where
  run : Running
  threads : Nat → ListenerThread
  accepts : Nat → List (Except IoError κ)
  queue : List Report
  sent : List (Nat × Report)
  refused : Option (Nat × IoError)

def start : State κ := ⟨.starting 0, fun _ => .unstarted, fun _ => [], [], [], none⟩

/-- The error of `run` for a report. -/
def reportError : Report → IoError
  | (address, .ok ()) =>
      ⟨.other, "listener " ++ String.ofList address.display ++ " exited unexpectedly"⟩
  | (address, .error e) =>
      ⟨e.kind, "listener " ++ String.ofList address.display ++ " failed: " ++ e.message⟩

def supervisorsTerminated : IoError := ⟨.other, "all listener supervisors terminated"⟩

/-- The receiver is gone once `run` has returned; what is sent then is dropped. -/
def State.deliver (s : State κ) (report : Report) : List Report :=
  match s.run with
  | .returned _ => s.queue
  | _ => s.queue ++ [report]

inductive Step (listeners : List BoundListener) (s : State κ) : State κ → Prop where
  | unaddressed {k : Nat} {bound : BoundListener} {e : IoError} (place : s.run = .starting k)
      (there : listeners[k]? = some bound) (address : bound.Address (.error e)) :
      Step listeners s { s with run := .returned (.error e), refused := some (k, e) }
  | notSpawned {k : Nat} {bound : BoundListener} (e : IoError) (place : s.run = .starting k)
      (there : listeners[k]? = some bound) :
      Step listeners s { s with run := .returned (.error e), refused := some (k, e) }
  | spawned {k : Nat} {bound : BoundListener} {address : ScopedAddr} (place : s.run = .starting k)
      (there : listeners[k]? = some bound) (addressed : bound.Address (.ok address)) :
      Step listeners s
        { s with
          run := .starting (k + 1), threads := Function.update s.threads k (.serving address 0) }
  | started {k : Nat} (place : s.run = .starting k) (all : listeners[k]? = none) :
      Step listeners s { s with run := .receiving }
  | received {report : Report} {rest : List Report} (place : s.run = .receiving)
      (queued : s.queue = report :: rest) :
      Step listeners s { s with run := .returned (.error (reportError report)), queue := rest }
  | disconnected (place : s.run = .receiving) (empty : s.queue = [])
      (gone : ∀ i, s.threads i = .unstarted ∨ s.threads i = .ended) :
      Step listeners s { s with run := .returned (.error supervisorsTerminated) }
  | accepted {i errors errors' : Nat} {address : ScopedAddr} {protocol : ListenerProtocol}
      {accepted : Except IoError κ}
      (tcp : listeners[i]? = some (.tcp protocol)) (place : s.threads i = .serving address errors)
      (goes : afterAccept errors accepted = .ok errors') :
      Step listeners s { s with
        threads := Function.update s.threads i (.serving address errors')
        accepts := Function.update s.accepts i (s.accepts i ++ [accepted]) }
  | gaveUp {i errors : Nat} {address : ScopedAddr} {protocol : ListenerProtocol}
      {accepted : Except IoError κ} {e : IoError}
      (tcp : listeners[i]? = some (.tcp protocol)) (place : s.threads i = .serving address errors)
      (ends : afterAccept errors accepted = .error e) :
      Step listeners s { s with
        threads := Function.update s.threads i (.exited address (.error e))
        accepts := Function.update s.accepts i (s.accepts i ++ [accepted]) }
  | failed {i errors : Nat} {address own : ScopedAddr} {result : Except IoError Unit}
      (udp : listeners[i]? = some (.tproxyUdp own)) (place : s.threads i = .serving address errors)
      (ends : TransparentUdp.Served result) :
      Step listeners s { s with threads := Function.update s.threads i (.exited address result) }
  | panicked {i errors : Nat} {address : ScopedAddr}
      (place : s.threads i = .serving address errors) :
      Step listeners s { s with threads := Function.update s.threads i .ended }
  | sent {i : Nat} {address : ScopedAddr} {result : Except IoError Unit}
      (place : s.threads i = .exited address result) :
      Step listeners s { s with
        threads := Function.update s.threads i .ended
        queue := s.deliver (address, result)
        sent := s.sent ++ [(i, address, result)] }

variable {listeners : List BoundListener} {s s' : State κ} {i : Nat}

/-! ### The threads -/

/-- The listener has ended with an error; a TCP listener with the last of eight failures of
`accept`. -/
structure GaveUp (listeners : List BoundListener) (i : Nat) (accepts : List (Except IoError κ))
    (result : Except IoError Unit) :
    Prop where
  error : ∃ e, result = .error e ∧ ∀ protocol, listeners[i]? = some (.tcp protocol) →
    FailedSince accepts acceptErrorRetryLimit ∧ accepts.getLast? = some (.error e)

/-- What a thread knows of its listener. -/
def Sound (listeners : List BoundListener) (i : Nat) (accepts : List (Except IoError κ)) :
    ListenerThread → Prop
  | .unstarted => accepts = []
  | .serving _ errors => i < listeners.length ∧
      ∀ protocol, listeners[i]? = some (.tcp protocol) → FailedSince accepts errors ∧
        errors < acceptErrorRetryLimit
  | .exited _ result => i < listeners.length ∧ GaveUp listeners i accepts result
  | .ended => True

/-- What the threads and their reports say about the listeners. -/
structure Known (listeners : List BoundListener) (s : State κ) : Prop where
  threads : ∀ i, Sound listeners i (s.accepts i) (s.threads i)
  ended : ∀ report ∈ s.sent, s.threads report.1 = .ended
  sent : ∀ report ∈ s.sent, GaveUp listeners report.1 (s.accepts report.1) report.2.2
  once : (s.sent.map Prod.fst).Nodup

/-- One thread goes on, which has not ended. -/
theorem Known.moves (known : Known listeners s) {thread : ListenerThread}
    {accepts : List (Except IoError κ)} {run : Running}
    {queue : List Report} (lives : s.threads i ≠ .ended)
    (sound : Sound listeners i accepts thread) :
    Known listeners
      ⟨run, Function.update s.threads i thread, Function.update s.accepts i accepts, queue,
        s.sent, s.refused⟩ where
  threads j := by
    by_cases same : j = i
    · subst same
      simpa using sound
    · simpa [same] using known.threads j
  ended report member := by
    have other : report.1 ≠ i := by
      rintro rfl
      exact lives (known.ended report member)
    simpa [other] using known.ended report member
  sent report member := by
    have other : report.1 ≠ i := by
      rintro rfl
      exact lives (known.ended report member)
    simpa [other] using known.sent report member
  once := known.once

theorem Known.same_accepts (known : Known listeners s) {thread : ListenerThread} {run : Running}
    {queue : List Report}
    (lives : s.threads i ≠ .ended) (sound : Sound listeners i (s.accepts i) thread) :
    Known listeners ⟨run, Function.update s.threads i thread, s.accepts, queue,
      s.sent, s.refused⟩ := by
  have moved : Known listeners
      ⟨run, Function.update s.threads i thread, Function.update s.accepts i (s.accepts i), queue,
          s.sent, s.refused⟩ :=
    known.moves lives sound
  rwa [Function.update_eq_self] at moved

theorem Known.run (known : Known listeners s) (run : Running) (queue : List Report)
    (refused : Option (Nat × IoError)) : Known listeners { s with run, queue, refused } :=
  ⟨known.threads, known.ended, known.sent, known.once⟩

theorem Known.step (known : Known listeners s)
    (fresh : ∀ k, s.run = .starting k → s.threads k = .unstarted)
    (step : Step listeners s s') : Known listeners s' := by
  cases step with
  | unaddressed | notSpawned | started | received | disconnected => exact known.run _ _ _
  | @spawned k bound address place there addressed =>
      have unstarted := fresh k place
      have none := known.threads k
      rw [unstarted] at none
      refine known.same_accepts (by rw [unstarted]; simp) ⟨(List.getElem?_eq_some_iff.mp there).1,
        fun protocol tcp => ?_⟩
      rw [show s.accepts k = [] from none]
      exact ⟨failedSince_nil, by decide⟩
  | @accepted i errors errors' address protocol accepted tcp place goes =>
      have sound := known.threads i
      rw [place] at sound
      obtain ⟨failed, few⟩ := sound.2 protocol tcp
      exact known.moves (by rw [place]; simp)
        ⟨sound.1, fun _ _ => afterAccept_eq_ok failed few goes⟩
  | @gaveUp i errors address protocol accepted e tcp place ends =>
      have sound := known.threads i
      rw [place] at sound
      obtain ⟨failed, few⟩ := sound.2 protocol tcp
      obtain ⟨rfl, -, eighth⟩ := afterAccept_eq_error failed few ends
      exact known.moves (by rw [place]; simp) ⟨sound.1, e, rfl, fun _ _ => ⟨eighth, by simp⟩⟩
  | @failed i errors address own result udp place ends =>
      obtain ⟨e, rfl⟩ := ends.error
      have sound := known.threads i
      rw [place] at sound
      refine known.same_accepts (by rw [place]; simp) ⟨sound.1, e, rfl, fun protocol tcp => ?_⟩
      cases udp.symm.trans tcp
  | @panicked i errors address place => exact known.same_accepts (by rw [place]; simp) trivial
  | @sent i address result place =>
      have sound := known.threads i
      rw [place] at sound
      have lives : s.threads i ≠ .ended := by
        rw [place]
        simp
      have new : ∀ report ∈ s.sent, report.1 ≠ i := by
        rintro report member rfl
        exact lives (known.ended report member)
      have moved : Known listeners
          ⟨s.run, Function.update s.threads i .ended, s.accepts, s.deliver (address, result),
              s.sent, s.refused⟩ :=
        known.same_accepts lives trivial
      refine ⟨moved.threads, fun report member => ?_, fun report member => ?_, ?_⟩
      · rcases List.mem_append.mp member with earlier | last
        · exact moved.ended report earlier
        · rw [List.mem_singleton.mp last]
          exact Function.update_self _ _ _
      · rcases List.mem_append.mp member with earlier | last
        · exact known.sent report earlier
        · rw [List.mem_singleton.mp last]
          exact sound.2
      · rw [List.map_append, List.nodup_append]
        refine ⟨known.once, List.nodup_singleton _, ?_⟩
        rintro _ member _ last rfl
        obtain ⟨report, reported, same⟩ := List.mem_map.mp member
        rw [List.mem_singleton.mp last] at same
        exact new report reported same

/-! ### The server -/

/-- The threads below the number were created, and no others. -/
def Created (s : State κ) (count : Nat) : Prop := ∀ i, s.threads i = .unstarted ↔ count ≤ i

/-- Where `run` is tells which threads were created and which reports were received; its result is
that of a start that failed, of the first report, or of the end of all threads without one. -/
inductive Supervised (listeners : List BoundListener) (s : State κ) : Running → Prop where
  | starting {k : Nat} (created : Created s k) (few : k ≤ listeners.length)
      (queued : s.queue = s.sent.map Prod.snd) :
      Supervised listeners s (.starting k)
  | receiving (created : Created s listeners.length) (queued : s.queue = s.sent.map Prod.snd) :
      Supervised listeners s .receiving
  | notStarted {k : Nat} {e : IoError} (created : Created s k) (few : k < listeners.length)
      (refused : s.refused = some (k, e)) : Supervised listeners s (.returned (.error e))
  | reported {first : Nat × Report} {rest : List (Nat × Report)}
      (created : Created s listeners.length)
      (sent : s.sent = first :: rest) :
        Supervised listeners s (.returned (.error (reportError first.2)))
  | terminated (created : Created s listeners.length) (silent : s.sent = [])
      (ended : ∀ i < listeners.length, s.threads i = .ended) :
      Supervised listeners s (.returned (.error supervisorsTerminated))

/-- A thread that was created goes on. -/
theorem Created.moves {count : Nat} (created : Created s count) {thread : ListenerThread}
    {accepts : Nat → List (Except IoError κ)}
    {run : Running} {queue : List Report} {sent : List (Nat × Report)}
    {refused : Option (Nat × IoError)}
    (was : s.threads i ≠ .unstarted) (is : thread ≠ .unstarted) :
    Created ⟨run, Function.update s.threads i thread, accepts, queue, sent, refused⟩ count := by
  intro j
  by_cases same : j = i
  · subst same
    have below : ¬ count ≤ j := fun above => was ((created j).mpr above)
    simp [is, below]
  · simpa [same] using created j

/-- A thread goes on that was created and has not ended. -/
theorem Supervised.moves (supervised : Supervised listeners s s.run) {thread : ListenerThread}
    {accepts : Nat → List (Except IoError κ)} (inside : i < listeners.length)
    (was : s.threads i ≠ .unstarted)
    (lives : s.threads i ≠ .ended) (is : thread ≠ .unstarted) :
    Supervised listeners { s with threads := Function.update s.threads i thread, accepts }
      s.run := by
  cases place : s.run with
  | starting k =>
      rw [place] at supervised
      cases supervised with
      | starting created few queued => exact .starting (created.moves was is) few queued
  | receiving =>
      rw [place] at supervised
      cases supervised with
      | receiving created queued => exact .receiving (created.moves was is) queued
  | returned result =>
      rw [place] at supervised
      cases supervised with
      | notStarted created few refused => exact .notStarted (created.moves was is) few refused
      | reported created sent => exact .reported (created.moves was is) sent
      | terminated created silent ended => exact absurd (ended i inside) lives

/-- What holds at every moment. -/
structure Inv (listeners : List BoundListener) (s : State κ) : Prop where
  known : Known listeners s
  supervised : Supervised listeners s s.run

theorem inv_start : Inv listeners (start : State κ) where
  known := ⟨fun _ => rfl, by simp [start], by simp [start], List.nodup_nil⟩
  supervised := .starting (fun i => by simp [start]) (Nat.zero_le _) rfl

theorem Inv.fresh (inv : Inv listeners s) {k : Nat} (place : s.run = .starting k) :
    s.threads k = .unstarted := by
  have supervised := inv.supervised
  rw [place] at supervised
  cases supervised with
  | starting created => exact (created k).mpr (Nat.le_refl k)

theorem Inv.step (inv : Inv listeners s) (step : Step listeners s s') : Inv listeners s' := by
  refine ⟨inv.known.step (fun k => inv.fresh) step, ?_⟩
  have supervised := inv.supervised
  cases step with
  | @unaddressed k bound e place there =>
      rw [place] at supervised
      cases supervised with
      | starting created few => exact .notStarted created (List.getElem?_eq_some_iff.mp there).1 rfl
  | @notSpawned k bound e place there =>
      rw [place] at supervised
      cases supervised with
      | starting created few => exact .notStarted created (List.getElem?_eq_some_iff.mp there).1 rfl
  | @spawned k bound address place there addressed =>
      rw [place] at supervised
      cases supervised with
      | starting created few queued =>
          refine .starting (fun i => ?_) (List.getElem?_eq_some_iff.mp there).1 queued
          by_cases same : i = k
          · subst same
            simp
          · have next : k + 1 ≤ i ↔ k ≤ i := by omega
            simpa [same, next] using created i
  | @started k place all =>
      rw [place] at supervised
      cases supervised with
      | starting created few queued =>
          have all : k = listeners.length := Nat.le_antisymm few (List.getElem?_eq_none_iff.mp all)
          subst all
          exact .receiving created queued
  | @received report rest place queued =>
      rw [place] at supervised
      cases supervised with
      | receiving created all =>
          rw [queued] at all
          cases reports : s.sent with
          | nil => simp [reports] at all
          | cons first later =>
              obtain ⟨rfl, -⟩ : report = first.2 ∧
                rest = later.map Prod.snd := by simpa [reports] using all
              exact .reported created rfl
  | disconnected place empty gone =>
      rw [place] at supervised
      cases supervised with
      | receiving created all =>
          refine .terminated created (by simpa [empty] using all.symm) fun i inside => ?_
          rcases gone i with unstarted | ended
          · have above := (created i).mp unstarted
            omega
          · exact ended
  | @accepted i errors errors' address protocol accepted tcp place goes =>
      exact supervised.moves (List.getElem?_eq_some_iff.mp tcp).1 (by simp [place])
        (by simp [place]) (by simp)
  | @gaveUp i errors address protocol accepted e tcp place ends =>
      exact supervised.moves (List.getElem?_eq_some_iff.mp tcp).1 (by simp [place])
        (by simp [place]) (by simp)
  | @failed i errors address own result udp place ends =>
      exact supervised.moves (List.getElem?_eq_some_iff.mp udp).1 (by simp [place])
        (by simp [place]) (by simp)
  | @panicked i errors address place =>
      have sound := inv.known.threads i
      rw [place] at sound
      exact supervised.moves sound.1 (by simp [place]) (by simp [place]) (by simp)
  | @sent i address result place =>
      have sound := inv.known.threads i
      rw [place] at sound
      have was : s.threads i ≠ .unstarted := by simp [place]
      cases running : s.run with
      | starting k =>
          rw [running] at supervised
          cases supervised with
          | starting created few queued =>
              exact .starting (created.moves was (by simp)) few
                (by simpa [State.deliver, running] using queued)
      | receiving =>
          rw [running] at supervised
          cases supervised with
          | receiving created queued =>
              exact .receiving (created.moves was (by simp))
                (by simpa [State.deliver, running] using queued)
      | returned result' =>
          rw [running] at supervised
          cases supervised with
          | notStarted created few refused =>
              exact .notStarted (created.moves was (by simp)) few refused
          | reported created reports =>
              exact .reported (created.moves was (by simp)) (by rw [reports]; rfl)
          | terminated created silent ended =>
              have gone := ended i sound.1
              rw [place] at gone
              cases gone

theorem inv_of_reachable (reached : Relation.ReflTransGen (Step listeners) start s) :
    Inv listeners s := by
  induction reached with
  | refl => exact inv_start
  | tail earlier step ih => exact ih.step step

/-- In every order of the turns of `run` and the threads of its listeners: `run` returns only an
error, which is that of a listener that could not be started, the report of the listener that ended
first, or says that all threads ended without a report. A TCP listener that reports has just seen
the eighth failure of `accept` since its last connection, not counting interruptions, and one that
serves has seen fewer; every listener reports at most once. Once all are started and one has
reported, `run` can return. -/
theorem run_reports_first_exit {binders : Binders} {configs : List ListenerConfig}
    {listeners : List BoundListener}
    (bound : binders.bind configs = .ok listeners) {s : State κ}
    (reached : Relation.ReflTransGen (Step listeners) start s) :
    List.Forall₂ (fun config listener => binders.bindListener config = .ok listener)
      configs listeners ∧
    (∀ result, s.run = .returned result → ∃ e, result = .error e ∧
      ((∃ k < listeners.length, s.refused = some (k, e) ∧ ∀ i, s.threads i = .unstarted ↔ k ≤ i) ∨
        (∃ i address cause rest, s.sent = (i, address, .error cause) :: rest ∧
          e = ⟨cause.kind, "listener " ++ String.ofList address.display ++ " failed: " ++
            cause.message⟩) ∨
        s.sent = [] ∧ (∀ i < listeners.length, s.threads i = .ended) ∧ e = supervisorsTerminated)) ∧
    (∀ i address result, (i, address, result) ∈ s.sent → s.threads i = .ended ∧ ∃ e,
      result = .error e ∧
      ∀ protocol, listeners[i]? = some (.tcp protocol) →
        FailedSince (s.accepts i) acceptErrorRetryLimit ∧ (s.accepts i).getLast? =
          some (.error e)) ∧
    (s.sent.map Prod.fst).Nodup ∧
    (∀ i address errors protocol, s.threads i = .serving address errors →
      listeners[i]? = some (.tcp protocol) →
      FailedSince (s.accepts i) errors ∧ errors < acceptErrorRetryLimit) ∧
    (s.run = .receiving → s.sent ≠ [] → ∃ s' e, Step listeners s s' ∧
      s'.run = .returned (.error e)) := by
  have inv := inv_of_reachable reached
  have supervised := inv.supervised
  refine ⟨Binders.bind_eq_ok bound, fun result place => ?_, fun i address result member => ?_,
    inv.known.once, ?_, ?_⟩
  · rw [place] at supervised
    cases supervised with
    | notStarted created few refused => exact ⟨_, rfl, .inl ⟨_, few, refused, created⟩⟩
    | @reported first rest created sent =>
        obtain ⟨i, address, result⟩ := first
        obtain ⟨cause, same, -⟩ := (inv.known.sent (i, address, result) (by rw [sent]; simp)).error
        dsimp only at same
        subst same
        exact ⟨_, rfl, .inr (.inl ⟨i, address, cause, rest, sent, rfl⟩)⟩
    | terminated created silent ended => exact ⟨_, rfl, .inr (.inr ⟨silent, ended, rfl⟩)⟩
  · exact ⟨inv.known.ended _ member, (inv.known.sent _ member).error⟩
  · intro i address errors protocol place tcp
    have sound := inv.known.threads i
    rw [place] at sound
    exact sound.2 protocol tcp
  · intro place some
    rw [place] at supervised
    cases supervised with
    | receiving created queued =>
        cases reports : s.queue with
        | nil => simp [reports] at queued; exact absurd queued some
        | cons report rest => exact ⟨_, _, .received place reports, rfl⟩

/-- All addresses can be bound. -/
def sampleBinders : Binders := ⟨fun _ => .ok (), fun _ => .ok (), fun _ => .ok ()⟩

def sampleAddress : ScopedAddr := ⟨.v4 ⟨127, 0, 0, 1⟩, 1080, 0⟩

def tooManyFiles : IoError := ⟨.other, "Too many open files"⟩

/-- Of two listeners, the first one fails to accept eight times in a row, with an interruption in
between, and is reported. -/
theorem run_reports_first_exit_example : ∃ s : State Unit,
    Relation.ReflTransGen (Step [.tcp .socks5, .tproxyUdp sampleAddress]) start s ∧
    s.run = .returned (.error ⟨.other, "listener 127.0.0.1:1080 failed: Too many open files"⟩) ∧
    FailedSince (s.accepts 0) 8 ∧ ∃ i address cause rest,
      s.sent = (i, address, .error cause) :: rest := by
  have bound : sampleBinders.bind [⟨.socks5, sampleAddress⟩, ⟨.tproxyUdp, sampleAddress⟩] =
      .ok [.tcp .socks5, .tproxyUdp sampleAddress] := rfl
  have begun :
    Relation.ReflTransGen (Step [.tcp .socks5, .tproxyUdp sampleAddress])
      (start : State Unit) start := .refl
  have first := begun.tail (.spawned rfl rfl (.tcp .socks5 (.ok sampleAddress)))
  have second := first.tail (.spawned rfl rfl (.tproxyUdp sampleAddress))
  have serving := second.tail (.started rfl rfl)
  have failed₁ := serving.tail (@Step.accepted _ _ _ 0 _ _ _ _ (.error tooManyFiles) rfl rfl rfl)
  have failed₂ := failed₁.tail (@Step.accepted _ _ _ 0 _ _ _ _ (.error tooManyFiles) rfl rfl rfl)
  have failed₃ := failed₂.tail (@Step.accepted _ _ _ 0 _ _ _ _ (.error tooManyFiles) rfl rfl rfl)
  have interrupted :=
    failed₃.tail (@Step.accepted _ _ _ 0 _ _ _ _
      (.error ⟨.interrupted, "Interrupted system call"⟩) rfl rfl rfl)
  have failed₄ :=
    interrupted.tail (@Step.accepted _ _ _ 0 _ _ _ _ (.error tooManyFiles) rfl rfl rfl)
  have failed₅ := failed₄.tail (@Step.accepted _ _ _ 0 _ _ _ _ (.error tooManyFiles) rfl rfl rfl)
  have failed₆ := failed₅.tail (@Step.accepted _ _ _ 0 _ _ _ _ (.error tooManyFiles) rfl rfl rfl)
  have failed₇ := failed₆.tail (@Step.accepted _ _ _ 0 _ _ _ _ (.error tooManyFiles) rfl rfl rfl)
  have gaveUp := failed₇.tail (@Step.gaveUp _ _ _ 0 _ _ _ (.error tooManyFiles) _ rfl rfl rfl)
  have sent := gaveUp.tail (.sent (i := 0) rfl)
  have returned := sent.tail (.received rfl rfl)
  obtain ⟨-, reports, reported, -⟩ := run_reports_first_exit bound returned
  obtain ⟨-, cause, same, eighth⟩ := reported 0 _ _ List.mem_cons_self
  obtain ⟨e, -, no | first | no⟩ := reports _ rfl
  · obtain ⟨k, -, refused, -⟩ := no
    cases refused
  · obtain ⟨i, address, cause, rest, first, -⟩ := first
    have message : reportError (sampleAddress, .error tooManyFiles) =
        ⟨.other, "listener 127.0.0.1:1080 failed: Too many open files"⟩ := by decide
    exact ⟨_, returned, congrArg (fun e => Running.returned (.error e)) message,
      (eighth .socks5 rfl).1, i, address, cause, rest, first⟩
  · cases no.1

end Supervision

end Commeatus.Daemon
