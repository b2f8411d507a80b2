import Commeatus.Daemon.TransparentLifetimes
import Commeatus.Daemon.TransparentOwnership

/-!
The reply sockets of the transparent listener.

A reply goes out from the address it came from, through a socket that is bound
to that address. The sockets are kept for later replies, at most 256 of them: a
socket goes when it has been idle for 120 seconds, or when room is needed and no
other one was used longer ago.
-/

namespace Commeatus.Daemon.TransparentUdp

open Commeatus.Lib Commeatus.Core

variable {ε ω : Type} {env : Env ω} {runtime : Runtime} {outbounds : Outbounds ε ω}

/-! ### Room for one more -/

theorem lookup_cleanupExpired (now : Nat) (sockets : Map SocketAddr Nat) (source : SocketAddr) :
    (cleanupExpired now sockets).lookup source =
      (sockets.lookup source).filter fun used => !decide (replySocketIdleTimeout ≤ now - used) :=
  Map.lookup_erase_where (fun used => decide (replySocketIdleTimeout ≤ now - used)) sockets source

theorem cleanupExpired_some {now used : Nat} {sockets : Map SocketAddr Nat} {source : SocketAddr} :
    (cleanupExpired now sockets).lookup source = some used ↔
      sockets.lookup source = some used ∧ now - used < replySocketIdleTimeout := by
  rw [lookup_cleanupExpired, Option.filter_eq_some_iff]
  simp

theorem cleanupExpired_kept {now used : Nat} {sockets : Map SocketAddr Nat} {source : SocketAddr}
    (found : sockets.lookup source = some used) :
    (cleanupExpired now sockets).lookup source = some used ∨
      (cleanupExpired now sockets).lookup source = none ∧ replySocketIdleTimeout ≤ now - used := by
  rw [lookup_cleanupExpired, found]
  by_cases idle : replySocketIdleTimeout ≤ now - used
  · exact .inr ⟨by simp [Option.filter_some, idle], idle⟩
  · exact .inl (by simp [Option.filter_some, idle])

theorem size_cleanupExpired_le (now : Nat) (sockets : Map SocketAddr Nat) :
    Map.size (cleanupExpired now sockets) ≤ sockets.size := Map.size_foldl_erase_le _ _

/-- The scan for the oldest keeps one of the entries, and none of them is older. -/
theorem foldl_oldest (entries : List ((_ : SocketAddr) × Nat)) (first : SocketAddr × Nat) :
    ∃ source used, entries.foldl (fun best entry =>
        match best with
        | none => some (entry.1, entry.2)
        | some (source, used) =>
            if entry.2 < used then some (entry.1, entry.2) else some (source, used))
        (some first) = some (source, used) ∧
      ((source, used) = first ∨ ⟨source, used⟩ ∈ entries) ∧ used ≤ first.2 ∧ ∀ entry ∈ entries,
          used ≤ entry.2 := by
  induction entries generalizing first with
  | nil => exact ⟨first.1, first.2, rfl, .inl rfl, le_refl _, nofun⟩
  | cons entry entries ih =>
      rw [List.foldl_cons]
      dsimp only
      by_cases older : entry.2 < first.2
      · rw [if_pos older]
        obtain ⟨source, used, same, from', le, least⟩ := ih (entry.1, entry.2)
        refine ⟨source, used, same, .inr ?_, Nat.le_trans le (Nat.le_of_lt older), ?_⟩
        · rcases from' with first' | later
          · cases first'
            exact List.mem_cons_self
          · exact List.mem_cons_of_mem _ later
        · exact List.forall_mem_cons.mpr ⟨le, least⟩
      · rw [if_neg older]
        obtain ⟨source, used, same, from', le, least⟩ := ih first
        refine ⟨source, used, same, from'.imp_right (List.mem_cons_of_mem _), le, ?_⟩
        exact List.forall_mem_cons.mpr ⟨Nat.le_trans le (Nat.le_of_not_lt older), least⟩

/-- The oldest socket of a cache that has one. -/
theorem oldest_least {sockets : Map SocketAddr Nat} (nonempty : 0 < sockets.size) :
    ∃ source used, oldest sockets = some source ∧ sockets.lookup source = some used ∧
      ∀ other used', sockets.lookup other = some used' → used ≤ used' := by
  obtain ⟨⟨source, used⟩, rest, entries⟩ := List.exists_cons_of_length_pos nonempty
  obtain ⟨source', used', same, from', le, least⟩ := foldl_oldest rest (source, used)
  refine ⟨source', used', ?_, ?_, ?_⟩
  · rw [oldest, entries, List.foldl_cons]
    exact congrArg (Option.map (·.1)) same
  · rw [← Map.mem_entries_iff, entries]
    rcases from' with first | later
    · cases first
      exact List.mem_cons_self
    · exact List.mem_cons_of_mem _ later
  · intro other used'' found
    rw [← Map.mem_entries_iff, entries] at found
    rcases List.mem_cons.mp found with first | later
    · cases first
      exact le
    · exact least _ later

/-- There is no room beside the sockets that are not idle, and none of them was used longer ago. -/
def Crowded (now : Nat) (sockets : Map SocketAddr Nat) (used : Nat) : Prop :=
  maxReplySockets ≤ Map.size (cleanupExpired now sockets) ∧
    ∀ other used', sockets.lookup other = some used' →
      now - used' < replySocketIdleTimeout → used ≤ used'

/-- Room is made by the cleanup, or else by the oldest. -/
inductive Room (now : Nat) (sockets : Map SocketAddr Nat) : Map SocketAddr Nat → Prop where
  | cleaned (room : Map.size (cleanupExpired now sockets) < maxReplySockets) :
      Room now sockets (cleanupExpired now sockets)
  | evicted {source : SocketAddr} {used : Nat}
      (there : (cleanupExpired now sockets).lookup source = some used)
      (crowded : Crowded now sockets used) :
        Room now sockets ((cleanupExpired now sockets).erase source)

theorem makeRoom_room (now : Nat) (sockets : Map SocketAddr Nat) :
    Room now sockets (makeRoom now sockets) := by
  unfold makeRoom
  dsimp only
  split
  · rename_i full
    have nonempty : 0 < Map.size (cleanupExpired now sockets) :=
      Nat.lt_of_lt_of_le (by simp [maxReplySockets]) full
    obtain ⟨source, used, found, there, least⟩ := oldest_least nonempty
    rw [found]
    exact .evicted there ⟨full, fun other used' held fresh =>
      least other used' (cleanupExpired_some.mpr ⟨held, fresh⟩)⟩
  · rename_i room
    exact .cleaned (Nat.lt_of_not_le room)

theorem Room.size {now : Nat} {sockets sockets' : Map SocketAddr Nat}
    (room : Room now sockets sockets')
    (bounded : sockets.size ≤ maxReplySockets) : sockets'.size < maxReplySockets := by
  cases room with
  | cleaned room => exact room
  | @evicted source used there crowded =>
      have smaller :=
        Map.size_erase_of_present (m := cleanupExpired now sockets) (a := source)
          (by rw [there]; rfl)
      have le := size_cleanupExpired_le now sockets
      omega

/-- A socket that made room was idle, or was the oldest where there was none. -/
theorem Room.kept {now : Nat} {sockets sockets' : Map SocketAddr Nat}
    (room : Room now sockets sockets')
    {source : SocketAddr} {used : Nat} (found : sockets.lookup source = some used) :
    sockets'.lookup source = some used ∨
      sockets'.lookup source = none ∧
      (replySocketIdleTimeout ≤ now - used ∨ Crowded now sockets used) := by
  have cleaned : (cleanupExpired now sockets).lookup source = some used ∨
      (cleanupExpired now sockets).lookup source = none ∧ replySocketIdleTimeout ≤ now - used :=
        cleanupExpired_kept found
  cases room with
  | cleaned room => exact cleaned.imp_right fun gone => ⟨gone.1, .inl gone.2⟩
  | @evicted oldest used' there crowded =>
      rw [Map.lookup_erase]
      by_cases same : source = oldest
      · rw [if_pos same]
        refine .inr ⟨rfl, ?_⟩
        rcases cleaned with held | ⟨-, idle⟩
        · rw [same, there] at held
          cases held
          exact .inr crowded
        · exact .inl idle
      · rw [if_neg same]
        exact cleaned.imp_right fun gone => ⟨gone.1, .inl gone.2⟩

theorem Room.absent {now : Nat} {sockets sockets' : Map SocketAddr Nat}
    (room : Room now sockets sockets')
    {source : SocketAddr} (absent : sockets.lookup source = none) :
    sockets'.lookup source = none := by
  have cleaned : (cleanupExpired now sockets).lookup source = none := by
    rw [lookup_cleanupExpired, absent]
    rfl
  cases room with
  | cleaned room => exact cleaned
  | evicted there crowded =>
      rw [Map.lookup_erase, cleaned, ite_self]

/-! ### What passes with the log -/

/-- What becomes of the cache while the log grows. -/
structure Passes (new : List Moment) (before after : Map SocketAddr Nat) : Prop where
  bounded : before.size ≤ maxReplySockets → after.size ≤ maxReplySockets
  kept : ∀ source used, before.lookup source = some used →
    (∀ client, .replied source client ∉ new) →
    after.lookup source = some used ∨
      after.lookup source = none ∧ ∃ now, .reading now ∈ new ∧
        (replySocketIdleTimeout ≤ now - used ∨ Crowded now before used)
  opened : ∀ source used, before.lookup source = none → after.lookup source = some used →
    .bound source ∈ new ∧ .reading used ∈ new
  used : ∀ source client, .replied source client ∈ new → ∃ now, .reading now ∈ new ∧
    after.lookup source = some now
  sourced : ∀ earlier source client later, new = earlier ++ .replied source client :: later →
    .bound source ∈ earlier ∨ (before.lookup source).isSome

/-- Without a reply in the log, what is kept and opened is all there is to say. -/
theorem Passes.quiet {new : List Moment} {before after : Map SocketAddr Nat}
    (unsent : ∀ source client, .replied source client ∉ new)
    (bounded : before.size ≤ maxReplySockets → after.size ≤ maxReplySockets)
    (kept : ∀ source used, before.lookup source = some used → after.lookup source = some used ∨
      after.lookup source = none ∧ ∃ now, .reading now ∈ new ∧
        (replySocketIdleTimeout ≤ now - used ∨ Crowded now before used))
    (opened : ∀ source used, before.lookup source = none → after.lookup source = some used →
      .bound source ∈ new ∧ .reading used ∈ new) : Passes new before after where
  bounded := bounded
  kept := fun source used found _ => kept source used found
  opened := opened
  used := fun source client member => absurd member (unsent source client)
  sourced := fun earlier source client later same =>
    absurd (by rw [same]; exact List.mem_append_right _ List.mem_cons_self) (unsent source client)

theorem Passes.of_same {new : List Moment} {sockets : Map SocketAddr Nat}
    (unsent : ∀ source client, .replied source client ∉ new) : Passes new sockets sockets := by
  refine .quiet unsent id (fun source used found => .inl found) fun source used absent found => ?_
  rw [absent] at found
  cases found

/-- Room is made at the reading. -/
theorem Passes.room {now : Nat} {before after : Map SocketAddr Nat} (room : Room now before after) :
    Passes [.reading now] before after := by
  refine .quiet (by simp) (fun bounded => Nat.le_of_lt (room.size bounded))
    (fun source used found => ?_)
    fun source used absent found => ?_
  · exact (room.kept found).imp_right fun gone => ⟨gone.1, now, List.mem_cons_self, gone.2⟩
  · rw [room.absent absent] at found
    cases found

/-- A cleanup drops what is idle at its reading. -/
theorem Passes.cleanup {new : List Moment} {now : Nat} {sockets : Map SocketAddr Nat}
    (unsent : ∀ source client, .replied source client ∉ new) (read : .reading now ∈ new) :
    Passes new sockets (cleanupExpired now sockets) := by
  refine .quiet unsent (Nat.le_trans (size_cleanupExpired_le now sockets))
    (fun source used found => ?_)
    fun source used absent found => ?_
  · exact (cleanupExpired_kept found).imp_right fun gone => ⟨gone.1, now, read, .inl gone.2⟩
  · rw [(cleanupExpired_some.mp found).1] at absent
    cases absent

/-- A socket that was not there is opened in the room that was made. -/
theorem Passes.open {now used : Nat} {source : SocketAddr} {before between : Map SocketAddr Nat}
    (room : Room now before between) (absent : before.lookup source = none) :
    Passes [.reading now, .bound source, .reading used] before (between.insert source used) := by
  refine .quiet (by simp) (fun bounded =>
    Nat.le_trans (Map.size_insert_le _ _ _) (room.size bounded))
    (fun other used' found => ?_) fun other used' absent' found => ?_
  · have distinct : other ≠ source := by
      rintro rfl
      rw [absent] at found
      cases found
    rw [Map.lookup_insert, if_neg distinct]
    exact (room.kept found).imp_right fun gone => ⟨gone.1, now, List.mem_cons_self, gone.2⟩
  · rw [Map.lookup_insert] at found
    split at found
    · rename_i same
      cases found
      exact ⟨by simp [same], by simp⟩
    · rw [room.absent absent'] at found
      cases found

/-- A moment of a longer log is in its first part, or the first part ends before it. -/
theorem split_append {first last earlier later : List Moment} {moment : Moment}
    (same : first ++ last = earlier ++ moment :: later) :
    (∃ rest, first = earlier ++ moment :: rest) ∨ ∃ between, earlier = first ++ between ∧
      last = between ++ moment :: later := by
  rcases List.append_eq_append_iff.mp same with ⟨between, left, right⟩ | ⟨between, left, right⟩
  · exact .inr ⟨between, left, right⟩
  · cases between with
    | nil => exact .inr ⟨[], by simpa using left.symm, by simpa using right.symm⟩
    | cons next rest =>
        cases right
        exact .inl ⟨rest, left⟩

/-- Later readings of the clock change nothing. -/
theorem Passes.more {new : List Moment} {before after : Map SocketAddr Nat}
    (passes : Passes new before after) (now : Nat) :
    Passes (new ++ [.reading now]) before after where
  bounded := passes.bounded
  kept := fun source used found unused => by
    refine (passes.kept source used found fun client member =>
      unused client (List.mem_append_left _ member)).imp_right ?_
    rintro ⟨gone, now', member, why⟩
    exact ⟨gone, now', List.mem_append_left _ member, why⟩
  opened := fun source used absent found =>
    (passes.opened source used absent found).imp (List.mem_append_left _) (List.mem_append_left _)
  used := fun source client member => by
    obtain ⟨now', read, found⟩ := passes.used source client (by simpa using member)
    exact ⟨now', List.mem_append_left _ read, found⟩
  sourced := fun earlier source client later same => by
    rcases split_append same with ⟨rest, new⟩ | ⟨between, -, last⟩
    · exact passes.sourced earlier source client rest new
    · have member : Moment.replied source client ∈ [Moment.reading now] := by
        rw [last]
        exact List.mem_append_right _ List.mem_cons_self
      simp at member

/-- A reply goes out through a socket that was there or has just been bound. -/
theorem Passes.reply {new : List Moment} {before between : Map SocketAddr Nat}
    {source client : SocketAddr} {now : Nat}
    (passes : Passes new before between) (unsent : ∀ source client, .replied source client ∉ new)
    (there : (between.lookup source).isSome)
    (from' : .bound source ∈ new ∨ (before.lookup source).isSome) :
    Passes (new ++ [.replied source client, .reading now]) before (between.insert source now) where
  bounded := fun bounded => by
    rw [Map.size_insert_of_present there]
    exact passes.bounded bounded
  kept := fun other used found unused => by
    have distinct : other ≠ source := by
      rintro rfl
      exact unused client (by simp)
    rw [Map.lookup_insert, if_neg distinct]
    refine (passes.kept other used found fun client => unsent other client).imp_right ?_
    rintro ⟨gone, now', member, why⟩
    exact ⟨gone, now', List.mem_append_left _ member, why⟩
  opened := fun other used absent found => by
    rw [Map.lookup_insert] at found
    split at found
    · rename_i same
      cases found
      rw [same] at absent ⊢
      rcases from' with bound | known
      · exact ⟨List.mem_append_left _ bound, by simp⟩
      · rw [absent] at known
        cases known
    · exact (passes.opened other used absent found).imp (List.mem_append_left _)
        (List.mem_append_left _)
  used := fun other client' member => by
    rcases List.mem_append.mp member with first | last
    · exact absurd first (unsent other client')
    · rcases List.mem_pair.mp last with same | no
      · cases same
        refine ⟨now, by simp, ?_⟩
        rw [Map.lookup_insert, if_pos rfl]
      · cases no
  sourced := fun earlier other client' later same => by
    rcases split_append same with ⟨rest, first⟩ | ⟨middle, rfl, last⟩
    · refine absurd ?_ (unsent other client')
      rw [first]
      exact List.mem_append_right _ List.mem_cons_self
    · cases middle with
      | nil =>
          cases last
          rw [List.append_nil]
          exact from'
      | cons first rest =>
          have member : Moment.replied other client' ∈ [Moment.reading now] := by
            rw [(List.cons.inj last).2]
            exact List.mem_append_right _ List.mem_cons_self
          simp at member

theorem SocketFor.passes {source : SocketAddr} {s s' : Timed ε ω}
    (socket : SocketFor env.timed source s s') :
    ∃ new, s'.world.2 = s.world.2 ++ new ∧ Passes new s.replySockets s'.replySockets ∧
      (∀ source client, .replied source client ∉ new) ∧ (s'.replySockets.lookup source).isSome ∧
        (.bound source ∈ new ∨ (s.replySockets.lookup source).isSome) := by
  cases socket with
  | known there => exact ⟨[], (List.append_nil _).symm, .of_same nofun, nofun, there, .inr there⟩
  | opened absent opening =>
      cases opening with
      | @bound world answer =>
          refine ⟨[.reading (env.now s.world.1).1, .bound source, .reading (env.now world.1).1], ?_,
            .open (makeRoom_room _ _) absent, by simp, ?_, .inl (by simp)⟩
          · simp [Env.timed_bind answer, boundTo]
          · rw [Map.lookup_insert, if_pos rfl]
            rfl

/-- What a reply does to the cache. -/
theorem Replying.passes {source : Target} {client : SocketAddr} {payload : Bytes} {s s' : Timed ε ω}
    {result : Except IoError Unit}
    (replying : Replying env.timed source client payload s result s') :
    ∃ new, s'.world.2 = s.world.2 ++ new ∧ Passes new s.replySockets s'.replySockets := by
  cases replying with
  | refused e => exact ⟨[], (List.append_nil _).symm, .of_same nofun⟩
  | notBound toAddress absent opening =>
      cases opening with
      | failed answer =>
          refine ⟨[.reading (env.now s.world.1).1], ?_, .room (makeRoom_room _ _)⟩
          simp [Env.timed_bind answer, boundTo]
  | notSent toAddress socket answer =>
      obtain ⟨new, log, passes, -⟩ := socket.passes
      refine ⟨new, ?_, passes⟩
      simp [Env.timed_reply answer, wholeReply, log]
  | short toAddress socket answer less =>
      obtain ⟨new, log, passes, -⟩ := socket.passes
      refine ⟨new, ?_, passes⟩
      simp [Env.timed_reply answer, wholeReply, less, log]
  | @whole address s₁ world toAddress socket answer =>
      obtain ⟨new, log, passes, unsent, there, from'⟩ := socket.passes
      refine ⟨new ++ [.replied address client, .reading (env.now world.1).1], ?_,
        passes.reply unsent there from'⟩
      simp [Env.timed_reply answer, wholeReply, log]

/-! ### Steps -/

theorem insertClient_sockets (client : SocketAddr) :
    Run.Keeps (fun s : Listener ε ω => s.replySockets) (insertClient env client) := by
  have clock : Run.Keeps (fun s : Listener ε ω => s.replySockets) (instant env) := by
    intro s result s' h
    cases h
    rfl
  refine clock.bind fun now =>
    Run.Keeps.bind (.modify fun s => cleanupIdleClients_sockets now s) fun _ => ?_
  intro s result s' h
  dsimp only at h
  split at h
  · cases h
    rfl
  · cases h
    rfl

theorem sendInbound_sockets (inserted : Bool) (client : SocketAddr)
    (endpoint : Endpoint) (target : Target)
    (payload : Bytes) :
    Run.Keeps (fun s : Listener ε ω => s.replySockets)
      (sendInbound outbounds inserted client endpoint target payload) := by
  intro s result s' sent
  cases sendInbound_ends outbounds sent with
  | noClient absent => rfl
  | accepted found sending =>
      unfold rememberTokens
      split
      · rfl
      · rfl
  | removed new found sending => rfl
  | remains known found sending => rfl

theorem handleInbound_sockets (received : ReceivedTransparentDatagram) :
    Run.Keeps (fun s : Listener ε ω => s.replySockets)
      (handleInbound env runtime outbounds received) := by
  intro s result s' handled
  cases handleInbound_ends env runtime outbounds handled with
  | unplanned selected => rfl
  | known selected found sent =>
      have kept := sendInbound_sockets _ _ _ _ _ _ _ _ sent
      exact kept
  | full selected absent inserts =>
      have kept := insertClient_sockets _ _ _ _ inserts
      exact kept
  | entered selected absent inserts sent =>
      have room := insertClient_sockets _ _ _ _ inserts
      exact (sendInbound_sockets _ _ _ _ _ _ _ _ sent).trans room

theorem touch_sockets (client : SocketAddr) :
    Run.Keeps (fun s : Listener ε ω => s.replySockets) (touch env client) := by
  intro s result s' touched
  unfold touch at touched
  split at touched
  · cases touched
    rfl
  · cases touched
    rfl

/-- A touch adds a reading to the log, or nothing. -/
theorem touch_readings {client : SocketAddr} {s s' : Timed ε ω} {result : Except IoError Unit}
    (touched : touch env.timed client s = some (result, s')) :
    s'.world.2 = s.world.2 ∨ ∃ now, s'.world.2 = s.world.2 ++ [.reading now] := by
  unfold touch at touched
  split at touched
  · cases touched
    exact .inl rfl
  · cases touched
    exact .inr ⟨_, rfl⟩

theorem Passes.touch {client : SocketAddr} {touched : Bool}
    {before : Map SocketAddr Nat} {log : List Moment}
    {new : List Moment} {s s' : Timed ε ω} {result : Except IoError Unit}
    (grown : s.world.2 = log ++ new)
    (passes : Passes new before s.replySockets)
    (h : Run.when touched (touch env.timed client) s = some (result, s')) :
    ∃ new', s'.world.2 = log ++ new' ∧ Passes new' before s'.replySockets := by
  cases touched with
  | false =>
      cases h
      exact ⟨new, grown, passes⟩
  | true =>
      have same : s'.replySockets = s.replySockets := touch_sockets client s result s' h
      rw [same]
      rcases touch_readings h with unread | ⟨now, read⟩
      · exact ⟨new, by rw [unread, grown], passes⟩
      · exact ⟨new ++ [.reading now], by rw [read, grown, List.append_assoc], passes.more now⟩

theorem receiveInbound_passes {burst : Nat} {events : List PollEvent} {s s' : Timed ε ω}
    {result : Except IoError Point}
    (proceeded : receiveInbound env.timed runtime (timedOutbounds outbounds) burst events s =
      some (result, s')) :
    ∃ new, s'.world.2 = s.world.2 ++ new ∧ Passes new s.replySockets s'.replySockets := by
  cases receiveInbound_cases env.timed runtime (timedOutbounds outbounds) proceeded with
  | failed answer =>
      obtain ⟨new, log, -, unreplied, -⟩ := recvOriginalDatagram_log answer
      exact ⟨new, log, .of_same unreplied⟩
  | drained answer =>
      obtain ⟨new, log, -, unreplied, -⟩ := recvOriginalDatagram_log answer
      exact ⟨new, log, .of_same unreplied⟩
  | arrived answer handled touched =>
      obtain ⟨sender, log, -, unreplied, -⟩ := recvOriginalDatagram_log answer
      obtain ⟨accepted, new, -, handling⟩ := handleInbound_handled handled
      have same := handleInbound_sockets _ _ _ _ handled
      have grown : _ = s.world.2 ++ (sender ++ new) :=
        handling.log.trans (by rw [← List.append_assoc, ← log])
      refine Passes.touch grown ?_ touched
      dsimp only at same
      rw [same]
      refine .of_same fun source client member => ?_
      rcases List.mem_append.mp member with first | last
      · exact unreplied source client first
      · rcases handling.only _ last with no | ⟨now, no⟩
        · cases no
        · cases no

theorem answer_passes {token : Nat} {client : SocketAddr}
    {ready : List (Nat × SocketAddr)} {burst : Nat}
    {received : Option ReceivedDatagram} {s s' : Timed ε ω} {result : Except IoError Point}
    (answered : answer env.timed token client ready burst received s = some (result, s')) :
    ∃ new, s'.world.2 = s.world.2 ++ new ∧ Passes new s.replySockets s'.replySockets := by
  cases received with
  | none =>
      cases answered
      exact ⟨[], (List.append_nil _).symm, .of_same nofun⟩
  | some received =>
      rcases Run.bind_eq_some answered with ⟨sent, s₁, replies, rest⟩ | ⟨e, replies, -⟩
      · obtain ⟨outcome, reply, -⟩ := Run.of_succeeds replies
        obtain ⟨new, log, passes⟩ := (sendReply_cases reply).passes
        rcases Run.bind_eq_some rest with ⟨_, s₂, touched, last⟩ | ⟨e, touched, -⟩
        · cases last
          exact passes.touch log touched
        · exact absurd touched ((touch_never env.timed client).when _ _)
      · obtain ⟨_, -, no⟩ := Run.of_succeeds replies
        cases no

theorem step_passes {point point' : Point} {s s' : Timed ε ω}
    (stepped : step env.timed runtime (timedOutbounds outbounds) point s = some (point', s')) :
    ∃ new, s'.world.2 = s.world.2 ++ new ∧ Passes new s.replySockets s'.replySockets := by
  obtain ⟨result, proceeded⟩ := proceed_of_step stepped
  match point with
  | .top =>
      obtain ⟨new, log, polled⟩ := pollEvents_polled proceeded
      refine ⟨new, log, ?_⟩
      cases polled with
      | failed now e clients sockets =>
          rw [sockets]
          exact .of_same (by simp)
      | interrupted now clients sockets =>
          rw [sockets]
          exact .of_same (by simp)
      | woken earlier now burst events clients sockets =>
          rw [sockets]
          exact .cleanup (by simp) (by simp)
  | .inbound 0 events =>
      cases proceeded
      exact ⟨[], (List.append_nil _).symm, .of_same nofun⟩
  | .inbound (burst + 1) events => exact receiveInbound_passes proceeded
  | .outbound [] burst =>
      cases proceeded
      exact ⟨[], (List.append_nil _).symm, .of_same nofun⟩
  | .outbound (entry :: ready) 0 =>
      cases proceeded
      exact ⟨[], (List.append_nil _).symm, .of_same nofun⟩
  | .outbound ((token, client) :: ready) (burst + 1) =>
      cases found : s.clients.lookup client with
      | none =>
          rw [proceed] at proceeded
          dsimp only at proceeded
          rw [found] at proceeded
          cases proceeded
          exact ⟨[], (List.append_nil _).symm, .of_same nofun⟩
      | some state =>
          rw [proceed_receive _ _ _ found] at proceeded
          have receives : ∀ {s₁ : Timed ε ω} {got : Except IoError (Option ReceivedDatagram)},
              receiveOutbound (timedOutbounds outbounds) client state token s = some (got, s₁) →
                s₁.world.2 = s.world.2 ∧ s₁.replySockets = s.replySockets := by
            intro s₁ got received
            obtain ⟨out, taken, rfl⟩ := Run.of_zoom received
            exact ⟨receiveReady_log taken, rfl⟩
          rcases Run.bind_eq_some proceeded with ⟨received, s₁, first, rest⟩ | ⟨e, first, -⟩
          · obtain ⟨log, same⟩ := receives first
            obtain ⟨new, log', passes⟩ := answer_passes rest
            exact ⟨new, by rw [log', log], same ▸ passes⟩
          · obtain ⟨log, same⟩ := receives first
            rw [same]
            exact ⟨[], by rw [log, List.append_nil], .of_same nofun⟩
  | .returned result =>
      cases proceeded
      exact ⟨[], (List.append_nil _).symm, .of_same nofun⟩

/-! ### Runs -/

/-- The cache is bounded, its sockets have been bound and used at readings of the clock, and so had
those of all replies. -/
structure Cached (s : Timed ε ω) : Prop where
  bounded : s.replySockets.size ≤ maxReplySockets
  bound : ∀ source used, s.replySockets.lookup source = some used → .bound source ∈ s.world.2 ∧
    used ∈ readings s.world.2
  sourced : ∀ earlier source client later, s.world.2 = earlier ++ .replied source client :: later →
    .bound source ∈ earlier

theorem Cached.step {s s' : Timed ε ω} (cached : Cached s) {new : List Moment}
    (log : s'.world.2 = s.world.2 ++ new)
    (passes : Passes new s.replySockets s'.replySockets) : Cached s' := by
  refine ⟨passes.bounded cached.bounded, fun source used found => ?_,
    fun earlier source client later same => ?_⟩
  · rw [log, readings_append]
    by_cases replied : ∃ client, .replied source client ∈ new
    · obtain ⟨client, member⟩ := replied
      obtain ⟨now, read, last⟩ := passes.used source client member
      cases last.symm.trans found
      refine ⟨?_, List.mem_append_right _ (mem_readings.mpr read)⟩
      obtain ⟨earlier, later, split⟩ := List.append_of_mem member
      rcases passes.sourced earlier source client later split with bound | known
      · rw [split]
        exact List.mem_append_right _ (List.mem_append_left _ bound)
      · obtain ⟨used', there⟩ := Option.isSome_iff_exists.mp known
        exact List.mem_append_left _ (cached.bound source used' there).1
    · cases before : s.replySockets.lookup source with
      | none =>
          obtain ⟨bound, read⟩ := passes.opened source used before found
          exact ⟨List.mem_append_right _ bound, List.mem_append_right _ (mem_readings.mpr read)⟩
      | some used' =>
          rcases passes.kept source used' before
            (fun client member => replied ⟨client, member⟩) with same | ⟨gone, -⟩
          · cases same.symm.trans found
            exact (cached.bound source _ before).imp (List.mem_append_left _)
              (List.mem_append_left _)
          · rw [gone] at found
            cases found
  · rcases split_append (log.symm.trans same) with ⟨rest, old⟩ | ⟨between, rfl, last⟩
    · exact cached.sourced earlier source client rest old
    · rcases passes.sourced between source client later last with bound | known
      · exact List.mem_append_right _ bound
      · obtain ⟨used, there⟩ := Option.isSome_iff_exists.mp known
        exact List.mem_append_left _ (cached.bound source used there).1

theorem Reaches.cached {world : ω} {point : Point} {s : Timed ε ω}
    (reached : Reaches env.timed runtime (timedOutbounds outbounds) (fun _ _ => True)
      { world := (world, []) } point s) : Cached s := by
  refine reached.invariant _ _ _ (I := fun _ s => Cached s) ?_ ?_
  · refine ⟨Nat.zero_le _, fun source used no => ?_, fun earlier source client later no => ?_⟩
    · cases no
    · cases earlier <;> cases no
  · intro point s point' s' cached _ stepped
    obtain ⟨new, log, passes⟩ := step_passes stepped
    exact cached.step log passes

/-- In every run: there are at most 256 reply sockets, each bound to its address and last used at a
reading of the clock; every reply goes out from an address that was bound before; a socket that a
reply goes out through is used at a reading of that step; another one stays as it is, or goes when
it has been idle for 120 seconds or when the cache is full of sockets that are not idle and none of
them was used longer ago; and a poll leaves exactly those that are not idle at the reading behind
it. -/
theorem replies_leave_through_bound_sockets (env : Env ω) (runtime : Runtime)
    (outbounds : Outbounds ε ω) {world : ω}
    {point : Point} {s : Timed ε ω}
    (reached : Reaches env.timed runtime (timedOutbounds outbounds) (fun _ _ => True)
      { world := (world, []) } point s) :
    s.replySockets.size ≤ maxReplySockets ∧
    (∀ source used, s.replySockets.lookup source = some used →
      .bound source ∈ s.world.2 ∧ used ∈ readings s.world.2) ∧
    (∀ earlier source client later, s.world.2 = earlier ++ .replied source client :: later →
      .bound source ∈ earlier) ∧
    ∀ point' s', step env.timed runtime (timedOutbounds outbounds) point s = some (point', s') →
      ∃ new, s'.world.2 = s.world.2 ++ new ∧
        (∀ source client, .replied source client ∈ new →
          ∃ now, .reading now ∈ new ∧ s'.replySockets.lookup source = some now) ∧
        (∀ source used, s.replySockets.lookup source = some used →
          (∀ client, .replied source client ∉ new) →
          s'.replySockets.lookup source = some used ∨
            s'.replySockets.lookup source = none ∧ ∃ now, .reading now ∈ new ∧
              (replySocketIdleTimeout ≤ now - used ∨ Crowded now s.replySockets used)) ∧
        (point = .top → ∀ burst events, point' = .inbound burst events →
          ∃ now, new.getLast? = some (.reading now) ∧
          ∀ source used, s'.replySockets.lookup source = some used ↔
            s.replySockets.lookup source = some used ∧ now - used < replySocketIdleTimeout) := by
  have cached := reached.cached
  refine ⟨cached.bounded, cached.bound, cached.sourced, fun point' s' stepped => ?_⟩
  obtain ⟨new, log, passes⟩ := step_passes stepped
  refine ⟨new, log, passes.used, passes.kept, ?_⟩
  rintro rfl burst events next
  obtain ⟨new', result, log', polled, woken⟩ := step_polled stepped
  cases List.append_cancel_left (log.symm.trans log')
  cases polled with
  | failed now e clients sockets => cases woken burst events next
  | interrupted now clients sockets => cases woken burst events next
  | woken earlier now burst events clients sockets =>
      refine ⟨now, rfl, fun source used => ?_⟩
      rw [sockets]
      exact cleanupExpired_some

/-- A client sends a datagram, and its route answers from another address: the reply goes out from
that address, which has been bound for it. -/
theorem replies_leave_through_bound_sockets_example :
    ∃ s : Timed (Opened Unit Unit) (List Message),
      Reaches Env.messages.timed proxied (timedOutbounds answering) (fun _ _ => True)
        { world := ([messageFrom 1 true], []) } (.outbound [(1, ⟨.v4 ⟨10, 0, 0, 1⟩, 5000⟩)] 31) s ∧
      s.replySockets.lookup ⟨.v4 ⟨5, 6, 7, 8⟩, 80⟩ = some 0 ∧
      .bound ⟨.v4 ⟨5, 6, 7, 8⟩, 80⟩ ∈ s.world.2 := by
  have run : ∃ s : Timed (Opened Unit Unit) (List Message),
      Reaches Env.messages.timed proxied (timedOutbounds answering) (fun _ _ => True)
        { world := ([messageFrom 1 true], []) } (.outbound [(1, ⟨.v4 ⟨10, 0, 0, 1⟩, 5000⟩)] 31) s ∧
      s.replySockets.lookup ⟨.v4 ⟨5, 6, 7, 8⟩, 80⟩ = some 0 :=
    ⟨_,
      .step (.step (.step (.step (.step (.step (.step .start trivial rfl) trivial rfl) trivial rfl)
      trivial rfl) trivial rfl) trivial rfl) trivial rfl, rfl⟩
  obtain ⟨s, reached, there⟩ := run
  obtain ⟨-, bound, -⟩ := replies_leave_through_bound_sockets Env.messages proxied answering reached
  exact ⟨s, reached, there, (bound _ _ there).1⟩

end Commeatus.Daemon.TransparentUdp
