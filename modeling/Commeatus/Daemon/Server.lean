import Commeatus.Daemon.ConnectionLimiter

/-!
Sessions of the server (`daemon/src/server.rs`).

A listener takes a permit for every connection that it accepts and moves it
into the thread of the session, which drops it when it ends. When that thread
cannot be created, the permit is dropped with what was to run in it. So every
permit is held by one thread at a time, and a server sees of its limiter what
any threads see that share one. No thread waits for another one to go on.
-/

namespace Commeatus.Daemon

open Commeatus.Lib

def maxActiveConnections (w : Nat) : BitVec w := BitVec.ofNat w 256

/-- Where a thread of the server is: in `accept`, in one of the steps of `spawn_connection`, or in
the session that it was created for. -/
inductive ServerThread where
  | unstarted
  | listening
  | acquiring
  | spawning (permit : ConnectionPermit)
  | unspawned (permit : ConnectionPermit)
  | session (permit : ConnectionPermit)
  | ended

/-- The permit that the thread holds. -/
def ServerThread.permit : ServerThread → Option ConnectionPermit
  | .unstarted | .listening | .acquiring | .ended => none
  | .spawning permit | .unspawned permit | .session permit => some permit

/-- The threads of a server and the limiter that they share. -/
structure Serving (ι : Type) (w : Nat) where
  shared : Sharing ι w
  threads : ι → ServerThread

namespace Serving

variable {ι : Type} {w : Nat} [DecidableEq ι]

/-- What one thread does, and what it makes of the limiter. A listener gives up when `accept` keeps
failing; a session ends when its handler returns or panics. -/
inductive Turn (s : Serving ι w) (i : ι) : ServerThread → Sharing ι w → Prop where
  | accepted {shared : Sharing ι w} (place : s.threads i = .listening)
      (step : Sharing.Step (.call i) s.shared shared) :
      Turn s i .acquiring shared
  | gaveUp (place : s.threads i = .listening) : Turn s i .ended s.shared
  | loaded {shared : Sharing ι w} (place : s.threads i = .acquiring)
      (step : Sharing.Step (.load i) s.shared shared) :
      Turn s i .acquiring shared
  | again {shared : Sharing ι w} (place : s.threads i = .acquiring)
      (step : Sharing.Step (.again i) s.shared shared) :
      Turn s i .acquiring shared
  | rejected {shared : Sharing ι w} (place : s.threads i = .acquiring)
      (step : Sharing.Step (.full i) s.shared shared) :
      Turn s i .listening shared
  | permitted {shared : Sharing ι w} (place : s.threads i = .acquiring)
      (step : Sharing.Step (.acquired i) s.shared shared) :
        Turn s i (.spawning s.shared.issued) shared
  | notSpawned {permit : ConnectionPermit} (place : s.threads i = .spawning permit) :
      Turn s i (.unspawned permit) s.shared
  | gaveBack {permit : ConnectionPermit} {shared : Sharing ι w}
      (place : s.threads i = .unspawned permit)
      (step : Sharing.Step (.dropped permit) s.shared shared) : Turn s i .listening shared
  | ended {permit : ConnectionPermit} {shared : Sharing ι w} (place : s.threads i = .session permit)
      (step : Sharing.Step (.dropped permit) s.shared shared) : Turn s i .ended shared

inductive Step (s : Serving ι w) : Serving ι w → Prop where
  | turn {i : ι} {thread : ServerThread} {shared : Sharing ι w} (turn : Turn s i thread shared) :
      Step s ⟨shared, Function.update s.threads i thread⟩
  | spawned {i j : ι} {permit : ConnectionPermit} (place : s.threads i = .spawning permit)
      (new : s.threads j = .unstarted) :
      Step s ⟨s.shared, Function.update (Function.update s.threads i .listening) j
        (.session permit)⟩

/-- A server with its listeners, and with threads that are yet to be created. -/
def system (ι : Type) [DecidableEq ι] (w : Nat) : Transitions (Serving ι w) where
  initial s := s.shared = Sharing.start ι (maxActiveConnections w) ∧
    ∀ i, s.threads i = .listening ∨ s.threads i = .unstarted
  step := Step

variable {s s' : Serving ι w}

/-! ### The limiter of a server -/

theorem Turn.shared {i : ι} {thread : ServerThread} {shared : Sharing ι w}
    (turn : Turn s i thread shared) :
    shared = s.shared ∨ ∃ act, Sharing.Step act s.shared shared := by
  cases turn with
  | gaveUp place => exact .inl rfl
  | notSpawned place => exact .inl rfl
  | accepted place step => exact .inr ⟨_, step⟩
  | loaded place step => exact .inr ⟨_, step⟩
  | again place step => exact .inr ⟨_, step⟩
  | rejected place step => exact .inr ⟨_, step⟩
  | permitted place step => exact .inr ⟨_, step⟩
  | gaveBack place step => exact .inr ⟨_, step⟩
  | ended place step => exact .inr ⟨_, step⟩

/-- The limiter of a server runs as one that threads share. -/
def limiter (e : Execution (system ι w)) : Execution (Sharing.system ι (maxActiveConnections w)) :=
  e.map Serving.shared (fun _ starts => starts.1) fun s s' step => by
    cases step with
    | turn turn => exact turn.shared
    | spawned place new => exact .inl rfl

/-! ### Who holds the permits -/

/-- A permit that a thread holds was not dropped, and no other thread holds it. -/
structure Owned (s : Serving ι w) : Prop where
  conserved : Sharing.Conserved (maxActiveConnections w) s.shared
  live : ∀ i permit, (s.threads i).permit = some permit → permit ∈ s.shared.outstanding
  alone : ∀ i j permit, (s.threads i).permit = some permit →
    (s.threads j).permit = some permit → i = j

omit [DecidableEq ι] in
theorem holds {i : ι} {thread : ServerThread} {permit : ConnectionPermit}
    (place : s.threads i = thread)
    (held : thread.permit = some permit) : (s.threads i).permit = some permit := by
  rw [place, held]

/-- One thread changes, and the permits of the others are still there. -/
theorem Owned.change (owned : Owned s) {i : ι} {thread : ServerThread} {shared : Sharing ι w}
    (conserved : Sharing.Conserved (maxActiveConnections w) shared)
    (others : ∀ j, j ≠ i → ∀ permit, (s.threads j).permit = some permit →
      permit ∈ shared.outstanding)
    (holds : ∀ permit, thread.permit = some permit →
      permit ∈ shared.outstanding ∧ ∀ j, j ≠ i → (s.threads j).permit ≠ some permit) :
    Owned ⟨shared, Function.update s.threads i thread⟩ := by
  refine ⟨conserved, fun j permit held => ?_, fun j k permit held held' => ?_⟩
  · dsimp only at held ⊢
    by_cases same : j = i
    · subst same
      rw [Function.update_self] at held
      exact (holds permit held).1
    · rw [Function.update_of_ne same] at held
      exact others j same permit held
  · dsimp only at held held'
    by_cases same : j = i
    · subst same
      by_cases same' : k = j
      · exact same'.symm
      · rw [Function.update_self] at held
        rw [Function.update_of_ne same'] at held'
        exact absurd held' ((holds permit held).2 k same')
    · rw [Function.update_of_ne same] at held
      by_cases same' : k = i
      · subst same'
        rw [Function.update_self] at held'
        exact absurd held ((holds permit held').2 j same)
      · rw [Function.update_of_ne same'] at held'
        exact owned.alone j k permit held held'

/-- A thread that holds no permit afterwards. -/
theorem Owned.released (owned : Owned s) {i : ι} {thread : ServerThread} {shared : Sharing ι w}
    (conserved : Sharing.Conserved (maxActiveConnections w) shared) (none : thread.permit = none)
    (others : ∀ j, j ≠ i → ∀ permit, (s.threads j).permit = some permit →
      permit ∈ shared.outstanding) :
    Owned ⟨shared, Function.update s.threads i thread⟩ :=
  owned.change conserved others fun _ held => nomatch none.symm.trans held

theorem keeps_outstanding {act : LimiterAct ι} {shared shared' : Sharing ι w}
    (step : Sharing.Step act shared shared')
    (keeps : act.Keeps) : shared'.outstanding = shared.outstanding := by
  cases step.effect with
  | none _ cell issued dropped => exact Sharing.outstanding_same issued dropped
  | issues => exact keeps.elim
  | drops => exact keeps.elim

theorem drops_outstanding {permit : ConnectionPermit} {shared shared' : Sharing ι w}
    (step : Sharing.Step (.dropped permit) shared shared') :
    shared'.outstanding = shared.outstanding.erase permit := by
  cases step.effect with
  | none keeps => exact keeps.elim
  | drops live cell issued dropped => exact Sharing.outstanding_drops issued dropped

/-- An operation that neither issues nor drops a permit, of a thread that holds none. -/
theorem Owned.keeps (owned : Owned s) {i : ι} {thread : ServerThread} {act : LimiterAct ι}
    {shared : Sharing ι w}
    (step : Sharing.Step act s.shared shared) (keeps : act.Keeps) (none : thread.permit = none) :
    Owned ⟨shared, Function.update s.threads i thread⟩ := by
  refine owned.released (step.effect.conserved owned.conserved) none fun j other permit held => ?_
  rw [keeps_outstanding step keeps]
  exact owned.live j permit held

/-- A thread that drops the permit it holds. -/
theorem Owned.drops (owned : Owned s) {i : ι} {thread : ServerThread} {permit : ConnectionPermit}
    {shared : Sharing ι w}
    (step : Sharing.Step (.dropped permit) s.shared shared)
    (held : (s.threads i).permit = some permit)
    (none : thread.permit = none) : Owned ⟨shared, Function.update s.threads i thread⟩ := by
  refine owned.released (step.effect.conserved owned.conserved) none fun j other permit' held' => ?_
  rw [drops_outstanding step, Finset.mem_erase]
  refine ⟨?_, owned.live j permit' held'⟩
  rintro rfl
  exact other (owned.alone j i permit' held' held)

theorem Owned.turn (owned : Owned s) {i : ι} {thread : ServerThread} {shared : Sharing ι w}
    (turn : Turn s i thread shared) :
    Owned ⟨shared, Function.update s.threads i thread⟩ := by
  cases turn with
  | accepted place step => exact owned.keeps step trivial rfl
  | gaveUp place => exact owned.released owned.conserved rfl fun j _ => owned.live j
  | loaded place step => exact owned.keeps step trivial rfl
  | again place step => exact owned.keeps step trivial rfl
  | rejected place step => exact owned.keeps step trivial rfl
  | permitted place step =>
      have conserved := step.effect.conserved owned.conserved
      cases step.effect with
      | none keeps => exact keeps.elim
      | issues room cell issued dropped =>
          have grown := Sharing.outstanding_issues owned.conserved.known issued dropped
          refine owned.change conserved (fun j other permit held => ?_) ?_
          · rw [grown]
            exact Finset.mem_insert_of_mem (owned.live j permit held)
          · rintro _ ⟨⟩
            refine ⟨grown ▸ Finset.mem_insert_self _ _, fun j other held => ?_⟩
            exact Sharing.issued_notMem_outstanding _ (owned.live j _ held)
  | @notSpawned permit place =>
      have held := holds place rfl
      refine owned.change owned.conserved (fun j _ => owned.live j) ?_
      rintro _ ⟨⟩
      exact ⟨owned.live i permit held, fun j other held' =>
        other (owned.alone j i permit held' held)⟩
  | gaveBack place step => exact owned.drops step (holds place rfl) rfl
  | ended place step => exact owned.drops step (holds place rfl) rfl

theorem Owned.spawned (owned : Owned s) {i j : ι} {permit : ConnectionPermit}
    (place : s.threads i = .spawning permit) :
    Owned ⟨s.shared, Function.update (Function.update s.threads i .listening) j
      (.session permit)⟩ := by
  have held := holds place rfl
  have left : Owned ⟨s.shared, Function.update s.threads i .listening⟩ :=
    owned.released owned.conserved rfl fun k _ => owned.live k
  refine left.change left.conserved (fun k _ => left.live k) ?_
  rintro _ ⟨⟩
  refine ⟨owned.live i permit held, fun k _ held' => ?_⟩
  dsimp only at held'
  by_cases same : k = i
  · subst same
    rw [Function.update_self] at held'
    cases held'
  · rw [Function.update_of_ne same] at held'
    exact same (owned.alone k i permit held' held)

theorem Owned.step (owned : Owned s) (step : Step s s') : Owned s' := by
  cases step with
  | turn turn => exact owned.turn turn
  | spawned place new => exact owned.spawned place

theorem owned (e : Execution (system ι w)) (n : Nat) : Owned (e.state n) := by
  refine e.always ?_ (fun s s' owned step => owned.step step) n
  rintro s ⟨shared, threads⟩
  have none : ∀ i permit, (s.threads i).permit ≠ some permit := by
    intro i permit held
    rcases threads i with place | place <;> rw [place] at held <;> cases held
  refine ⟨?_, fun i permit held => absurd held (none i permit), fun i j permit held =>
    absurd held (none i permit)⟩
  rw [shared]
  exact Sharing.conserved_start _

/-! ### Permits are conserved -/

omit [DecidableEq ι] in
/-- Threads that hold permits are at most as many as there may be. -/
theorem Owned.card_le (owned : Owned s) {holders : Finset ι}
    (held : ∀ i ∈ holders, ∃ permit, (s.threads i).permit = some permit) :
    holders.card ≤ 256 := by
  have injective : Set.InjOn (fun i => (s.threads i).permit.getD 0) holders := by
    intro i member j member' same
    obtain ⟨permit, holds⟩ := held i member
    obtain ⟨permit', holds'⟩ := held j member'
    dsimp only at same
    rw [holds, holds', Option.getD_some, Option.getD_some] at same
    subst same
    exact owned.alone i j permit holds holds'
  have inside : Set.MapsTo (fun i => (s.threads i).permit.getD 0) holders s.shared.outstanding := by
    intro i member
    obtain ⟨permit, holds⟩ := held i member
    dsimp only
    rw [holds]
    exact owned.live i permit holds
  have few : (maxActiveConnections w).toNat ≤ 256 := Nat.mod_le _ _
  calc holders.card ≤ s.shared.outstanding.card := Finset.card_le_card_of_injOn _ inside injective
    _ = s.shared.limiter.active.toNat := owned.conserved.counts.symm
    _ ≤ (maxActiveConnections w).toNat := BitVec.le_def.mp owned.conserved.bounded
    _ ≤ 256 := few

/-- The only thing that a thread whose spawn failed goes on with is dropping the permit. -/
theorem Step.unspawned (step : Step s s') {i : ι} {permit : ConnectionPermit}
    (place : s.threads i = .unspawned permit) :
    s'.threads i = .unspawned permit ∨ s'.threads i = .listening ∧
    Sharing.Step (.dropped permit) s.shared s'.shared := by
  cases step with
  | @turn j thread shared turn =>
      by_cases same : i = j
      · subst same
        cases turn with
        | gaveBack place' step =>
            cases place.symm.trans place'
            exact .inr ⟨Function.update_self _ _ _, step⟩
        | accepted place' => cases place.symm.trans place'
        | gaveUp place' => cases place.symm.trans place'
        | loaded place' => cases place.symm.trans place'
        | again place' => cases place.symm.trans place'
        | rejected place' => cases place.symm.trans place'
        | permitted place' => cases place.symm.trans place'
        | notSpawned place' => cases place.symm.trans place'
        | ended place' => cases place.symm.trans place'
      · exact .inl ((Function.update_of_ne same _ _).trans place)
  | @spawned j k permit' place' new =>
      have notCaller : i ≠ j := by
        rintro rfl
        cases place.symm.trans place'
      have notNew : i ≠ k := by
        rintro rfl
        cases place.symm.trans new
      refine .inl ?_
      dsimp only
      rw [Function.update_of_ne notNew, Function.update_of_ne notCaller, place]

/-- In every run of threads that share a limiter, the counter is the number of permits that were
issued and not yet dropped; it is at most the limit, and counting it up or down never wraps around.
A call is refused only if the counter was at the limit during that call. A server's limiter runs in
the same way: at most 256 sessions run at once, and a thread whose spawn failed can drop its permit,
and goes on only by dropping it. -/
theorem permits_conserved (ι : Type) [DecidableEq ι] (w : Nat) :
    (∀ (limit : BitVec w) (e : Execution (Sharing.system ι limit)) (n : Nat),
      (e.state n).limiter.active.toNat = (e.state n).outstanding.card ∧
      (e.state n).limiter.active ≤ limit ∧
      (∀ i s, Sharing.Step (.acquired i) (e.state n) s →
        s.limiter.active.toNat = (e.state n).limiter.active.toNat + 1) ∧
      ∀ permit s, Sharing.Step (.dropped permit) (e.state n) s →
        s.limiter.active.toNat + 1 = (e.state n).limiter.active.toNat) ∧
    (∀ (limit : BitVec w) (e : Execution (Sharing.system ι limit)) (i : ι) (first last : Nat),
      Sharing.Call e i first last none → ∃ k, first ≤ k ∧ k < last ∧
        (e.state k).limiter.active = limit) ∧
    ∀ e : Execution (system ι w),
      (∃ sharing : Execution (Sharing.system ι (maxActiveConnections w)), ∀ n,
        sharing.state n = (e.state n).shared) ∧
      ∀ n,
        (∀ sessions : Finset ι, (∀ i ∈ sessions, ∃ permit, (e.state n).threads i =
          .session permit) → sessions.card ≤ 256) ∧
        ∀ i permit, (e.state n).threads i = .unspawned permit →
          (∃ s, Step (e.state n) s ∧ s.threads i = .listening) ∧
          ∀ s, Step (e.state n) s → s.threads i = .unspawned permit ∨
            s.threads i = .listening ∧
            s.shared.outstanding = (e.state n).shared.outstanding.erase permit ∧
              s.shared.limiter.active.toNat + 1 = (e.state n).shared.limiter.active.toNat := by
  refine ⟨fun limit e n => ?_, fun limit e i first last call => ?_,
    fun e => ⟨⟨limiter e, fun n => rfl⟩, fun n => ?_⟩⟩
  · have conserved := Sharing.conserved e n
    refine ⟨conserved.counts, conserved.bounded, fun i s step => ?_, fun permit s step =>
      step.counts_down conserved⟩
    exact step.counts_up
  · exact Sharing.full_since call.entered call.later call.returned
  · have owned := owned e n
    refine ⟨fun sessions all => owned.card_le fun i member => ?_, fun i permit place =>
      ⟨?_, fun s step => ?_⟩⟩
    · obtain ⟨permit, place⟩ := all i member
      exact ⟨permit, holds place rfl⟩
    · have live := owned.live i permit (holds place rfl)
      exact ⟨_, .turn (.gaveBack place (.dropped live)), Function.update_self _ _ _⟩
    · rcases step.unspawned place with stays | ⟨listens, drop⟩
      · exact .inl stays
      · exact .inr ⟨listens, drops_outstanding drop, drop.counts_down owned.conserved⟩

/-- The limiter after a thread was granted a permit. -/
def granted (shared : Sharing ι w) (i : ι) : Sharing ι w :=
  { shared.moved i (.returned (some shared.issued)) with
    limiter := { shared.limiter with active := shared.limiter.active + 1 }
    issued := shared.issued + 1 }

def sampleCall : Nat → Sharing Unit 64 → Sharing Unit 64
  | 0, s | 3, s => s.moved () .entered
  | 1, s | 4, s => s.moved () (.looping s.limiter.active)
  | 2, s => granted s ()
  | 5, s => s.moved () (.returned none)
  | _, s => s

def sampleSharing : Nat → Sharing Unit 64
  | 0 => Sharing.start Unit 1
  | n + 1 => sampleCall n (sampleSharing n)

/-- One thread takes the only permit, and calls once more. -/
def sampleCalls : Execution (Sharing.system Unit (1 : BitVec 64)) where
  state := sampleSharing
  starts := rfl
  moves
    | 0 => .inr ⟨.call (), .call fun inside => inside⟩
    | 1 => .inr ⟨.load (), .load rfl⟩
    | 2 => .inr ⟨.acquired (), .acquired rfl (by decide) (.exchanged rfl)⟩
    | 3 => .inr ⟨.call (), .call fun inside => inside⟩
    | 4 => .inr ⟨.load (), .load rfl⟩
    | 5 => .inr ⟨.full (), .full rfl (by decide)⟩
    | _ + 6 => .inl rfl

def sampleSpawn : Nat → Serving Bool 64 → Serving Bool 64
  | 0, s | 4, s => ⟨s.shared.moved false .entered, Function.update s.threads false .acquiring⟩
  | 1, s
  | 5, s =>
      ⟨s.shared.moved false (.looping s.shared.limiter.active),
        Function.update s.threads false .acquiring⟩
  | 2, s
  | 6, s => ⟨granted s.shared false, Function.update s.threads false (.spawning s.shared.issued)⟩
  | 3, s =>
      ⟨s.shared, Function.update (Function.update s.threads false .listening) true (.session 0)⟩
  | 7, s => ⟨s.shared, Function.update s.threads false (.unspawned 1)⟩
  | _, s => s

def sampleServing : Nat → Serving Bool 64
  | 0 =>
      ⟨Sharing.start Bool (maxActiveConnections 64), fun i => if i then .unstarted else .listening⟩
  | n + 1 => sampleSpawn n (sampleServing n)

/-- A listener starts a session, and fails to start another one. -/
def sampleSpawns : Execution (system Bool 64) where
  state := sampleServing
  starts := by
    refine ⟨rfl, fun i => ?_⟩
    cases i with
    | false => exact .inl rfl
    | true => exact .inr rfl
  moves
    | 0 => .inr (.turn (.accepted rfl (.call fun inside => inside)))
    | 1 => .inr (.turn (.loaded rfl (.load rfl)))
    | 2 => .inr (.turn (.permitted rfl (.acquired rfl (by decide) (.exchanged rfl))))
    | 3 => .inr (.spawned rfl rfl)
    | 4 => .inr (.turn (.accepted rfl (.call fun inside => inside)))
    | 5 => .inr (.turn (.loaded rfl (.load rfl)))
    | 6 => .inr (.turn (.permitted rfl (.acquired rfl (by decide) (.exchanged rfl))))
    | 7 => .inr (.turn (.notSpawned rfl))
    | _ + 8 => .inl rfl

theorem permits_conserved_example :
    (∃ k, 4 ≤ k ∧ k < 6 ∧ (sampleCalls.state k).limiter.active = 1) ∧
    ({true} : Finset Bool).card ≤ 256 ∧ ∃ s, Step (sampleSpawns.state 8) s ∧
      s.threads false = .listening := by
  obtain ⟨-, refused, -⟩ := permits_conserved Unit 64
  obtain ⟨-, -, serving⟩ := permits_conserved Bool 64
  obtain ⟨-, spawns⟩ := serving sampleSpawns
  obtain ⟨few, back⟩ := spawns 8
  refine ⟨refused 1 sampleCalls () 4 6 ⟨by decide, rfl, ?_, rfl⟩, few {true} ?_,
    (back false 1 rfl).1⟩
  · intro k after before
    obtain rfl | rfl : k = 4 ∨ k = 5 := by omega
    · trivial
    · trivial
  · intro i member
    rw [Finset.mem_singleton.mp member]
    exact ⟨0, rfl⟩

end Serving

end Commeatus.Daemon
