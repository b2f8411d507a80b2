import Commeatus.Lib.Io
import Commeatus.Lib.Monitor

/-!
Two programs that talk over one connection.

Each party has the bytes that have come to it and are not yet read. An action on
the connection sends bytes, waits for a number of them, or takes some of those
that are there; every other action may be answered in any way. A party that has
ended has closed its end. A failure of the connection, a timeout included, is a
fault, and may come with any action on it.

The parties take turns in any order. `Settles` follows one order that is chosen
for its convenience, and `Settles.step` says that the order does not matter: the
turns of the two parties commute.
-/

namespace Commeatus.Lib

/-- What an action does on the connection, and the answers for success and for failure. -/
inductive Role (Reply : Type) where
  | off
  | send (bytes : Bytes) (ok : Reply) (failed : IoError → Reply)
  | receive (count : Nat) (ok : Bytes → Reply) (failed : IoError → Reply)
  | poll (limit : Nat) (ok : Bytes → Reply) (failed : IoError → Reply)

structure Wiring (Act : Type) (Ans : Act → Type) where
  role : (action : Act) → Role (Ans action)
  answers : ∀ action, Nonempty (Ans action)
  positive : ∀ action limit ok failed, role action = .poll limit ok failed → 0 < limit

/-- A party: what is left of its program, what has come to it, what it has done, and whether the
connection has failed it. -/
structure Party (Act : Type) (Ans : Act → Type) (α : Type) where
  prog : Prog Act Ans α
  inbox : Bytes := []
  log : List (Prog.Event Act Ans) := []
  broken : Bool := false

namespace Party

variable {Act : Type} {Ans : Act → Type} {α : Type}

def Ended (p : Party Act Ans α) : Prop := ∃ a, p.prog = .done a

/-- More bytes have come. -/
def hears (p : Party Act Ans α) (bytes : Bytes) : Party Act Ans α :=
  { p with inbox := p.inbox ++ bytes }

/-- The party after an action. -/
def goes (p : Party Act Ans α) (prog : Prog Act Ans α) (inbox : Bytes)
    (event : Prog.Event Act Ans) (fault : Bool) :
    Party Act Ans α where
  prog := prog
  inbox := inbox
  log := p.log ++ [event]
  broken := p.broken || fault

@[simp] theorem hears_nil (p : Party Act Ans α) : p.hears [] = p := by simp [hears]

@[simp] theorem prog_hears (p : Party Act Ans α) (bytes : Bytes) :
    (p.hears bytes).prog = p.prog := rfl

@[simp] theorem inbox_hears (p : Party Act Ans α) (bytes : Bytes) :
    (p.hears bytes).inbox = p.inbox ++ bytes := rfl

@[simp] theorem hears_goes (p : Party Act Ans α) (bytes inbox : Bytes) (prog : Prog Act Ans α)
    (event : Prog.Event Act Ans) (fault : Bool) : (p.hears bytes).goes prog inbox event fault =
      p.goes prog inbox event fault :=
  rfl

theorem goes_hears (p : Party Act Ans α) (bytes inbox : Bytes) (prog : Prog Act Ans α)
    (event : Prog.Event Act Ans)
    (fault : Bool) : (p.goes prog inbox event fault).hears bytes =
      p.goes prog (inbox ++ bytes) event fault :=
  rfl

theorem not_ended {p : Party Act Ans α} {action : Act} {next : Ans action → Prog Act Ans α}
    (performs : p.prog = .act action next) : ¬ p.Ended := by
  rintro ⟨a, done⟩
  rw [performs] at done
  cases done

/-- The next action of a party: whether it is a fault, what becomes of the party, and the bytes that
leave it. Waiting for bytes that the other side has closed on is no fault. -/
inductive Step (w : Wiring Act Ans) (closed : Prop) (p : Party Act Ans α) :
    Bool → Party Act Ans α → Bytes → Prop where
  | off {action : Act} {next : Ans action → Prog Act Ans α} (performs : p.prog = .act action next)
      (role : w.role action = .off) (answer : Ans action) :
      Step w closed p false (p.goes (next answer) p.inbox ⟨action, answer⟩ false) []
  | sends {action : Act} {next : Ans action → Prog Act Ans α} {bytes : Bytes} {ok : Ans action}
      {failed : IoError → Ans action} (performs : p.prog = .act action next)
      (role : w.role action = .send bytes ok failed) :
      Step w closed p false (p.goes (next ok) p.inbox ⟨action, ok⟩ false) bytes
  | sendFails {action : Act} {next : Ans action → Prog Act Ans α}
      {bytes part : Bytes} {ok : Ans action}
      {failed : IoError → Ans action} (performs : p.prog = .act action next)
      (role : w.role action = .send bytes ok failed) (e : IoError) (some : part <+: bytes) :
      Step w closed p true (p.goes (next (failed e)) p.inbox ⟨action, failed e⟩ true) part
  | receives {action : Act} {next : Ans action → Prog Act Ans α} {count : Nat}
      {ok : Bytes → Ans action}
      {failed : IoError → Ans action} (performs : p.prog = .act action next)
      (role : w.role action = .receive count ok failed) (enough : count ≤ p.inbox.length) :
      Step w closed p false
        (p.goes (next (ok (p.inbox.take count))) (p.inbox.drop count)
          ⟨action, ok (p.inbox.take count)⟩ false) []
  | receiveEnds {action : Act} {next : Ans action → Prog Act Ans α} {count : Nat}
      {ok : Bytes → Ans action}
      {failed : IoError → Ans action} (performs : p.prog = .act action next)
      (role : w.role action = .receive count ok failed) (shut : closed)
        (short : p.inbox.length < count) :
      Step w closed p false
        (p.goes (next (failed ByteStream.unexpectedEof)) []
          ⟨action, failed ByteStream.unexpectedEof⟩ false) []
  | receiveFails {action : Act} {next : Ans action → Prog Act Ans α} {count lost : Nat}
      {ok : Bytes → Ans action}
      {failed : IoError → Ans action} (performs : p.prog = .act action next)
      (role : w.role action = .receive count ok failed) (e : IoError) (some : lost ≤ count) :
      Step w closed p true (p.goes (next (failed e)) (p.inbox.drop lost) ⟨action, failed e⟩ true) []
  | polls {action : Act} {next : Ans action → Prog Act Ans α} {limit : Nat} {chunk rest : Bytes}
      {ok : Bytes → Ans action}
      {failed : IoError → Ans action} (performs : p.prog = .act action next)
      (role : w.role action = .poll limit ok failed) (cut : p.inbox = chunk ++ rest)
        (some : chunk ≠ [])
      (within : chunk.length ≤ limit) :
        Step w closed p false (p.goes (next (ok chunk)) rest ⟨action, ok chunk⟩ false) []
  | pollEnds {action : Act} {next : Ans action → Prog Act Ans α} {limit : Nat}
      {ok : Bytes → Ans action}
      {failed : IoError → Ans action} (performs : p.prog = .act action next)
      (role : w.role action = .poll limit ok failed) (shut : closed) (empty : p.inbox = []) :
      Step w closed p false (p.goes (next (ok [])) [] ⟨action, ok []⟩ false) []
  | pollFails {action : Act} {next : Ans action → Prog Act Ans α} {limit : Nat}
      {ok : Bytes → Ans action}
      {failed : IoError → Ans action} (performs : p.prog = .act action next)
      (role : w.role action = .poll limit ok failed) (e : IoError) :
      Step w closed p true (p.goes (next (failed e)) p.inbox ⟨action, failed e⟩ true) []

/-- A party that will send nothing before it has heard from the other: it has ended, or it waits for
more than has come and gives up if that fails. -/
inductive Silent (w : Wiring Act Ans) (p : Party Act Ans α) : Prop where
  | ended (ended : p.Ended)
  | waits {action : Act} {next : Ans action → Prog Act Ans α} {count : Nat}
      {ok : Bytes → Ans action}
      {failed : IoError → Ans action} (performs : p.prog = .act action next)
      (role : w.role action = .receive count ok failed) (short : p.inbox.length < count)
      (givesUp : ∀ e, ∃ a, next (failed e) = .done a)

/-- A party that can go on without a fault, and whose choices no turn of the other party changes.
How much a poll takes may depend on what has come, so the other party must be silent then. -/
inductive Ready (w : Wiring Act Ans) (closed silent : Prop) (p : Party Act Ans α) : Prop where
  | off {action : Act} {next : Ans action → Prog Act Ans α} (performs : p.prog = .act action next)
      (role : w.role action = .off)
  | send {action : Act} {next : Ans action → Prog Act Ans α} {bytes : Bytes} {ok : Ans action}
      {failed : IoError → Ans action} (performs : p.prog = .act action next)
      (role : w.role action = .send bytes ok failed)
  | receive {action : Act} {next : Ans action → Prog Act Ans α} {count : Nat}
      {ok : Bytes → Ans action}
      {failed : IoError → Ans action} (performs : p.prog = .act action next)
      (role : w.role action = .receive count ok failed) (enough : count ≤ p.inbox.length ∨ closed)
  | poll {action : Act} {next : Ans action → Prog Act Ans α} {limit : Nat} {ok : Bytes → Ans action}
      {failed : IoError → Ans action} (performs : p.prog = .act action next)
      (role : w.role action = .poll limit ok failed) (some : p.inbox ≠ [] ∨ closed) (quiet : silent)

variable {w : Wiring Act Ans} {closed closed' silent silent' : Prop}
    {p p' : Party Act Ans α} {fault : Bool}
  {out bytes : Bytes}

theorem Ready.not_ended (ready : Ready w closed silent p) : ¬ p.Ended := by
  cases ready with
  | off performs | send performs | receive performs
  | poll performs => exact Party.not_ended performs

theorem Step.not_ended (step : Step w closed p fault p' out) : ¬ p.Ended := by
  cases step with
  | off performs | sends performs | sendFails performs | receives performs | receiveEnds performs
  | receiveFails performs
  | polls performs | pollEnds performs | pollFails performs => exact Party.not_ended performs

theorem performs_unique {action action' : Act} {next : Ans action → Prog Act Ans α}
    {next' : Ans action' → Prog Act Ans α}
    (performs : p.prog = .act action next) (performs' : p.prog = .act action' next') :
    action' = action ∧ HEq next' next := by
  rw [performs] at performs'
  injection performs' with same sameNext
  exact ⟨same.symm, sameNext.symm⟩

/-- A party that is ready takes a step without a fault. -/
theorem Ready.exists_step (ready : Ready w closed silent p) :
    ∃ p' out, Step w closed p false p' out := by
  cases ready with
  | @off action _ performs role =>
    obtain ⟨answer⟩ := w.answers action
    exact ⟨_, _, .off performs role answer⟩
  | send performs role => exact ⟨_, _, .sends performs role⟩
  | @receive _ _ count _ _ performs role enough =>
    by_cases all : count ≤ p.inbox.length
    · exact ⟨_, _, .receives performs role all⟩
    · exact ⟨_, _, .receiveEnds performs role (enough.resolve_left all) (by omega)⟩
  | poll performs role some =>
    cases inbox : p.inbox with
    | nil => exact ⟨_, _, .pollEnds performs role (by simpa [inbox] using some) inbox⟩
    | cons byte rest =>
      exact ⟨_, _, .polls performs role (show p.inbox = [byte] ++ rest from inbox) (by simp)
        (w.positive _ _ _ _ role)⟩

/-- What a party can do, it can do as well when more has come to it. -/
theorem Step.hears (step : Step w closed p fault p' out) (open' : ¬ closed) :
    Step w closed' (p.hears bytes) fault (p'.hears bytes) out := by
  cases step with
  | off performs role answer => exact .off (p := p.hears bytes) performs role answer
  | sends performs role => exact .sends (p := p.hears bytes) performs role
  | sendFails performs role e some => exact .sendFails (p := p.hears bytes) performs role e some
  | @receives _ _ count _ _ performs role enough =>
    have step : Step w closed' (p.hears bytes) false _ [] :=
      .receives performs role (by simp; omega)
    simpa [List.take_append_of_le_length enough, List.drop_append_of_le_length enough,
      goes_hears] using step
  | receiveEnds _ _ shut | pollEnds _ _ shut => exact absurd shut open'
  | @receiveFails _ _ count lost _ _ performs role e some =>
    -- What is lost was there before.
    have within : min lost p.inbox.length ≤ p.inbox.length := by omega
    have step : Step w closed' (p.hears bytes) true _ [] :=
      .receiveFails (p := p.hears bytes) performs role e
        (show min lost p.inbox.length ≤ count by omega)
    have same : p.inbox.drop (min lost p.inbox.length) = p.inbox.drop lost := by
      rcases Nat.le_total lost p.inbox.length with some | all
      · rw [Nat.min_eq_left some]
      · rw [Nat.min_eq_right all, List.drop_length, List.drop_eq_nil_of_le all]
    simpa [List.drop_append_of_le_length within, same, goes_hears] using step
  | polls performs role cut some within =>
    rw [goes_hears]
    exact .polls performs role (by simp [cut]) some within
  | pollFails performs role e => exact .pollFails (p := p.hears bytes) performs role e

theorem Ready.enough {action : Act} {next : Ans action → Prog Act Ans α} {count : Nat}
    {ok : Bytes → Ans action}
    {failed : IoError → Ans action} (ready : Ready w closed silent p) (open' : ¬ closed)
    (performs : p.prog = .act action next) (role : w.role action = .receive count ok failed) :
    count ≤ p.inbox.length := by
  cases ready with
  | off performs' role' | send performs' role' | poll performs' role' =>
    obtain ⟨rfl, -⟩ := performs_unique performs performs'
    cases role.symm.trans role'
  | receive performs' role' enough =>
    obtain ⟨rfl, -⟩ := performs_unique performs performs'
    cases role.symm.trans role'
    exact enough.resolve_right open'

theorem Ready.some {action : Act} {next : Ans action → Prog Act Ans α} {limit : Nat}
    {ok : Bytes → Ans action}
    {failed : IoError → Ans action} (ready : Ready w closed silent p) (open' : ¬ closed)
    (performs : p.prog = .act action next) (role : w.role action = .poll limit ok failed) :
    silent ∧ p.inbox ≠ [] := by
  cases ready with
  | off performs' role' | send performs' role' | receive performs' role' =>
    obtain ⟨rfl, -⟩ := performs_unique performs performs'
    cases role.symm.trans role'
  | poll _ _ some quiet => exact ⟨quiet, some.resolve_right open'⟩

/-- A party that was ready does nothing new when more has come to it. -/
theorem Ready.of_hears (ready : Ready w closed silent p) (open' : ¬ closed)
    (quiet : silent → bytes = [])
    (step : Step w closed' (p.hears bytes) fault p' out) : ∃ q, Step w closed p fault q out ∧
      p' = q.hears bytes := by
  cases step with
  | off performs role answer => exact ⟨_, .off (p := p) performs role answer, rfl⟩
  | sends performs role => exact ⟨_, .sends (p := p) performs role, rfl⟩
  | sendFails performs role e some => exact ⟨_, .sendFails (p := p) performs role e some, rfl⟩
  | @receives _ _ count _ _ performs role _ =>
    have enough : count ≤ p.inbox.length := ready.enough open' performs role
    refine ⟨_, .receives (p := p) performs role enough, ?_⟩
    simp [List.take_append_of_le_length enough, List.drop_append_of_le_length enough, goes_hears]
  | @receiveEnds _ _ count _ _ performs role _ short =>
    have enough : count ≤ p.inbox.length := ready.enough open' performs role
    simp only [inbox_hears, List.length_append] at short
    omega
  | @receiveFails _ _ count lost _ _ performs role e some =>
    have enough : count ≤ p.inbox.length := ready.enough open' performs role
    refine ⟨_, .receiveFails (p := p) performs role e some, ?_⟩
    simp [List.drop_append_of_le_length (Nat.le_trans some enough), goes_hears]
  | polls performs role cut some within =>
    obtain ⟨still, -⟩ := ready.some open' performs role
    have none := quiet still
    subst none
    exact ⟨_, .polls (p := p) performs role (by simpa using cut) some within, by simp⟩
  | pollEnds performs role _ empty =>
    obtain ⟨-, some⟩ := ready.some open' performs role
    simp [some] at empty
  | pollFails performs role e => exact ⟨_, .pollFails (p := p) performs role e, rfl⟩

theorem Ready.hears (ready : Ready w closed silent p) (open' : ¬ closed)
    (still : silent → silent') :
    Ready w closed' silent' (p.hears bytes) := by
  cases ready with
  | off performs role => exact .off performs role
  | send performs role => exact .send performs role
  | receive performs role enough =>
    apply Ready.receive (p := p.hears bytes) performs role
    have enough := enough.resolve_right open'
    exact .inl (by simp; omega)
  | poll performs role some quiet =>
    apply Ready.poll (p := p.hears bytes) performs role _ (still quiet)
    exact .inl (by simp [some.resolve_right open'])

/-- The turn of a silent party gives the other nothing and leaves it silent. -/
theorem Silent.step (silent : Silent w p) (open' : ¬ closed) (step : Step w closed p fault p' out) :
    out = [] ∧ p'.Ended := by
  cases silent with
  | ended ended => exact absurd ended step.not_ended
  | waits performs role short givesUp =>
    cases step with
    | off performs' role' | sends performs' role' | sendFails performs' role'
    | polls performs' role'
    | pollEnds performs' role' | pollFails performs' role' =>
      obtain ⟨rfl, -⟩ := performs_unique performs performs'
      cases role.symm.trans role'
    | receives performs' role' enough =>
      obtain ⟨rfl, -⟩ := performs_unique performs performs'
      cases role.symm.trans role'
      omega
    | receiveEnds _ _ shut => exact absurd shut open'
    | receiveFails performs' role' e =>
      obtain ⟨rfl, same⟩ := performs_unique performs performs'
      cases role.symm.trans role'
      cases same
      exact ⟨rfl, givesUp e⟩

end Party

structure Dialogue (Act : Type) (Ans : Act → Type) (α : Type) (Act' : Type)
    (Ans' : Act' → Type) (β : Type) where
  left : Party Act Ans α
  right : Party Act' Ans' β

namespace Dialogue

variable {Act : Type} {Ans : Act → Type} {α : Type} {Act' : Type} {Ans' : Act' → Type} {β : Type}

/-- Two programs that have not begun. -/
def start (left : Prog Act Ans α) (right : Prog Act' Ans' β) : Dialogue Act Ans α Act' Ans' β :=
  ⟨⟨left, [], [], false⟩, ⟨right, [], [], false⟩⟩

def swap (d : Dialogue Act Ans α Act' Ans' β) : Dialogue Act' Ans' β Act Ans α := ⟨d.right, d.left⟩

def Ended (d : Dialogue Act Ans α Act' Ans' β) : Prop := d.left.Ended ∧ d.right.Ended

/-- A turn of the left party. -/
inductive Turn (w : Wiring Act Ans) (fault : Bool) (d : Dialogue Act Ans α Act' Ans' β) :
    Dialogue Act Ans α Act' Ans' β → Prop where
  | intro {p : Party Act Ans α} {out : Bytes} (step : d.left.Step w d.right.Ended fault p out) :
      Turn w fault d ⟨p, d.right.hears out⟩

/-- A turn of either party. -/
inductive Step (w : Wiring Act Ans) (w' : Wiring Act' Ans') (fault : Bool)
    (d d' : Dialogue Act Ans α Act' Ans' β) : Prop where
  | left (turn : Turn w fault d d')
  | right (turn : Turn w' fault d.swap d'.swap)

def Ready (w : Wiring Act Ans) (w' : Wiring Act' Ans')
    (d : Dialogue Act Ans α Act' Ans' β) : Prop :=
  d.left.Ready w d.right.Ended (d.right.Silent w')

/-- The dialogue ends as `post` says when the parties take their turns in one order, whatever the
answers and the faults are. -/
inductive Settles (w : Wiring Act Ans) (w' : Wiring Act' Ans')
    (post : Dialogue Act Ans α Act' Ans' β → Prop) :
    Dialogue Act Ans α Act' Ans' β → Prop where
  | ended {d : Dialogue Act Ans α Act' Ans' β} (ended : d.Ended) (holds : post d) :
      Settles w w' post d
  | left {d : Dialogue Act Ans α Act' Ans' β} (ready : d.Ready w w')
      (onward : ∀ fault d', Turn w fault d d' → Settles w w' post d') : Settles w w' post d
  | right {d : Dialogue Act Ans α Act' Ans' β} (ready : d.swap.Ready w' w)
      (onward : ∀ fault d', Turn w' fault d.swap d'.swap → Settles w w' post d') :
        Settles w w' post d

variable {w : Wiring Act Ans} {w' : Wiring Act' Ans'} {d d' d'' : Dialogue Act Ans α Act' Ans' β}
    {fault fault' : Bool}
  {post post' : Dialogue Act Ans α Act' Ans' β → Prop}

/-- A party that was ready still is after a turn of the other one. -/
theorem Ready.stays (ready : d.Ready w w') (turn : Turn w' fault d.swap d'.swap) :
    d'.Ready w w' := by
  obtain ⟨left, right⟩ := d
  obtain ⟨left', right'⟩ := d'
  obtain ⟨other⟩ := turn
  apply Party.Ready.hears ready other.not_ended
  exact fun silent => .ended (silent.step (Party.Ready.not_ended ready) other).2

/-- The turns of the two parties commute: what a party that was ready does after a turn of the other
one, it could have done before. -/
theorem Ready.commutes (ready : d.Ready w w') (turn : Turn w' fault d.swap d'.swap)
    (turn' : Turn w fault' d' d'') :
    ∃ m, Turn w fault' d m ∧ Turn w' fault m.swap d''.swap := by
  obtain ⟨left, right⟩ := d
  obtain ⟨left', right'⟩ := d'
  cases turn with
  | @intro q out other =>
    have open' : ¬ left.Ended := Party.Ready.not_ended ready
    have quiet : right.Silent w' → out = [] := fun silent => (silent.step open' other).1
    obtain ⟨step⟩ := turn'
    obtain ⟨p, first, rfl⟩ := Party.Ready.of_hears ready other.not_ended quiet step
    exact ⟨_, .intro first, .intro (other.hears open')⟩

/-- The order of the turns does not matter. -/
theorem Settles.step (settles : Settles w w' post d) (step : Step w w' fault d d') :
    Settles w w' post d' := by
  induction settles generalizing fault d' with
  | ended ended =>
    cases step with
    | left turn =>
      obtain ⟨step⟩ := turn
      exact absurd ended.1 step.not_ended
    | right turn =>
      generalize d'.swap = e at turn
      obtain ⟨step⟩ := turn
      exact absurd ended.2 step.not_ended
  | left ready onward ih =>
    cases step with
    | left turn => exact onward _ _ turn
    | right turn =>
      apply Settles.left (ready.stays turn)
      intro fault' d'' turn'
      obtain ⟨m, first, second⟩ := ready.commutes turn turn'
      exact ih _ _ first (.right second)
  | right ready onward ih =>
    cases step with
    | right turn => exact onward _ _ turn
    | left turn =>
      apply Settles.right (ready.stays turn)
      intro fault' d'' turn'
      obtain ⟨m, first, second⟩ := ready.commutes turn turn'
      exact ih _ m.swap first (.left second)

/-- Without further faults, the dialogue can be brought to its end. -/
theorem Settles.completes (settles : Settles w w' post d) :
    ∃ d', Relation.ReflTransGen (Step w w' false) d d' ∧ d'.Ended := by
  induction settles with
  | ended ended => exact ⟨_, .refl, ended⟩
  | left ready onward ih =>
    obtain ⟨p, out, step⟩ := Party.Ready.exists_step ready
    obtain ⟨d', rest, ended⟩ := ih _ _ (.intro step)
    exact ⟨d', .head (.left (.intro step)) rest, ended⟩
  | @right d ready onward ih =>
    obtain ⟨p, out, step⟩ := Party.Ready.exists_step ready
    have turn : Turn w' false d.swap (swap ⟨d.left.hears out, p⟩) := .intro step
    obtain ⟨d', rest, ended⟩ := ih _ _ turn
    exact ⟨d', .head (.right turn) rest, ended⟩

/-- A run without faults is a run. -/
theorem runs_of_quiet (quiet : Relation.ReflTransGen (Step w w' false) d d') :
    Relation.ReflTransGen (fun a b => ∃ fault, Step w w' fault a b) d d' := by
  induction quiet with
  | refl => exact .refl
  | tail _ step ih => exact ih.tail ⟨false, step⟩

/-- A dialogue that settles may be watched in any order of turns: it is never stuck, and it ends as
it should. -/
theorem Settles.runs (settles : Settles w w' post d)
    (run : Relation.ReflTransGen (fun a b => ∃ fault, Step w w' fault a b) d d') :
    (d'.Ended → post d') ∧ ∃ d'', Relation.ReflTransGen (Step w w' false) d' d'' ∧ d''.Ended := by
  have settles' : Settles w w' post d' := by
    induction run with
    | refl => exact settles
    | tail _ step ih =>
      obtain ⟨fault, step⟩ := step
      exact ih.step step
  refine ⟨fun ended => ?_, settles'.completes⟩
  cases settles' with
  | ended _ holds => exact holds
  | left ready => exact absurd ended.1 (Party.Ready.not_ended ready)
  | right ready => exact absurd ended.2 (Party.Ready.not_ended ready)

/-! ### The rules -/

theorem Settles.swap (settles : Settles w w' post d) :
    Settles w' w (fun e => post e.swap) d.swap := by
  induction settles with
  | ended ended holds => exact .ended ⟨ended.2, ended.1⟩ holds
  | left ready onward ih => exact .right ready fun fault d' turn => ih fault d'.swap turn
  | right ready onward ih => exact .left ready fun fault d' turn => ih fault d'.swap turn

variable {l : Party Act Ans α} {r : Party Act' Ans' β}

section Left

variable {action : Act} {next : Ans action → Prog Act Ans α}

theorem Settles.left_off (performs : l.prog = .act action next) (role : w.role action = .off)
    (answered : ∀ answer, Settles w w' post
      ⟨l.goes (next answer) l.inbox ⟨action, answer⟩ false, r⟩) :
    Settles w w' post ⟨l, r⟩ := by
  apply Settles.left (Party.Ready.off performs role)
  rintro fault _ ⟨step⟩
  cases step with
  | off performs' _ answer =>
    obtain ⟨rfl, same⟩ := Party.performs_unique performs performs'
    cases same
    simpa using answered answer
  | sends performs' role' | sendFails performs' role' | receives performs' role'
  | receiveEnds performs' role'
  | receiveFails performs' role' | polls performs' role' | pollEnds performs' role'
  | pollFails performs' role' =>
    obtain ⟨rfl, -⟩ := Party.performs_unique performs performs'
    cases role.symm.trans role'

theorem Settles.left_sends {bytes : Bytes} {ok : Ans action} {failed : IoError → Ans action}
    (performs : l.prog = .act action next) (role : w.role action = .send bytes ok failed)
    (sent : Settles w w' post ⟨l.goes (next ok) l.inbox ⟨action, ok⟩ false, r.hears bytes⟩)
    (fails : ∀ e part, part <+: bytes →
      Settles w w' post ⟨l.goes (next (failed e)) l.inbox ⟨action, failed e⟩ true, r.hears part⟩) :
    Settles w w' post ⟨l, r⟩ := by
  apply Settles.left (Party.Ready.send performs role)
  rintro fault _ ⟨step⟩
  cases step with
  | sends performs' role' =>
    obtain ⟨rfl, same⟩ := Party.performs_unique performs performs'
    cases same
    cases role.symm.trans role'
    exact sent
  | sendFails performs' role' e some =>
    obtain ⟨rfl, same⟩ := Party.performs_unique performs performs'
    cases same
    cases role.symm.trans role'
    exact fails e _ some
  | off performs' role' | receives performs' role' | receiveEnds performs' role'
  | receiveFails performs' role' | polls performs' role' | pollEnds performs' role'
  | pollFails performs' role' =>
    obtain ⟨rfl, -⟩ := Party.performs_unique performs performs'
    cases role.symm.trans role'

/-- The bytes are there, or none will follow those that are. -/
theorem Settles.left_receives {count : Nat} {ok : Bytes → Ans action}
    {failed : IoError → Ans action}
    (performs : l.prog = .act action next) (role : w.role action = .receive count ok failed)
    (enough : count ≤ l.inbox.length ∨ r.Ended)
    (received : count ≤ l.inbox.length → Settles w w' post
      ⟨l.goes (next (ok (l.inbox.take count))) (l.inbox.drop count)
        ⟨action, ok (l.inbox.take count)⟩ false, r⟩)
    (ends : r.Ended → l.inbox.length < count → Settles w w' post
      ⟨l.goes (next (failed ByteStream.unexpectedEof)) []
        ⟨action, failed ByteStream.unexpectedEof⟩ false, r⟩)
    (fails : ∀ e lost, Settles w w' post
      ⟨l.goes (next (failed e)) (l.inbox.drop lost) ⟨action, failed e⟩ true, r⟩) :
    Settles w w' post ⟨l, r⟩ := by
  apply Settles.left (Party.Ready.receive performs role enough)
  rintro fault _ ⟨step⟩
  cases step with
  | receives performs' role' enough =>
    obtain ⟨rfl, same⟩ := Party.performs_unique performs performs'
    cases same
    cases role.symm.trans role'
    simpa using received enough
  | receiveEnds performs' role' shut short =>
    obtain ⟨rfl, same⟩ := Party.performs_unique performs performs'
    cases same
    cases role.symm.trans role'
    simpa using ends shut short
  | receiveFails performs' role' e =>
    obtain ⟨rfl, same⟩ := Party.performs_unique performs performs'
    cases same
    cases role.symm.trans role'
    simpa using fails e _
  | off performs' role' | sends performs' role' | sendFails performs' role' | polls performs' role'
  | pollEnds performs' role' | pollFails performs' role' =>
    obtain ⟨rfl, -⟩ := Party.performs_unique performs performs'
    cases role.symm.trans role'

/-- The other party is silent, so what is there is cut in any way. -/
theorem Settles.left_polls {limit : Nat} {ok : Bytes → Ans action} {failed : IoError → Ans action}
    (performs : l.prog = .act action next) (role : w.role action = .poll limit ok failed)
    (quiet : r.Silent w')
    (some : l.inbox ≠ [] ∨ r.Ended)
    (polled : ∀ chunk rest, l.inbox = chunk ++ rest → chunk ≠ [] →
      chunk.length ≤ limit → Settles w w' post
      ⟨l.goes (next (ok chunk)) rest ⟨action, ok chunk⟩ false, r⟩)
    (ends : r.Ended → l.inbox = [] →
      Settles w w' post ⟨l.goes (next (ok [])) [] ⟨action, ok []⟩ false, r⟩)
    (fails : ∀ e, Settles w w' post ⟨l.goes (next (failed e)) l.inbox ⟨action, failed e⟩ true, r⟩) :
    Settles w w' post ⟨l, r⟩ := by
  apply Settles.left (Party.Ready.poll performs role some quiet)
  rintro fault _ ⟨step⟩
  cases step with
  | polls performs' role' cut some within =>
    obtain ⟨rfl, same⟩ := Party.performs_unique performs performs'
    cases same
    cases role.symm.trans role'
    simpa using polled _ _ cut some within
  | pollEnds performs' role' shut empty =>
    obtain ⟨rfl, same⟩ := Party.performs_unique performs performs'
    cases same
    cases role.symm.trans role'
    simpa using ends shut empty
  | pollFails performs' role' e =>
    obtain ⟨rfl, same⟩ := Party.performs_unique performs performs'
    cases same
    cases role.symm.trans role'
    simpa using fails e
  | off performs' role' | sends performs' role' | sendFails performs' role'
  | receives performs' role'
  | receiveEnds performs' role' | receiveFails performs' role' =>
    obtain ⟨rfl, -⟩ := Party.performs_unique performs performs'
    cases role.symm.trans role'

/-- When the other party has ended, the dialogue ends when this one does. -/
theorem Settles.left_alone (ended : r.Ended)
    (holds : ∀ l' r', l'.Ended → r'.prog = r.prog → r'.log = r.log →
      r'.broken = r.broken → post ⟨l', r'⟩) :
    Settles w w' post ⟨l, r⟩ := by
  obtain ⟨prog, inbox, log, broken⟩ := l
  have still {r' : Party Act' Ans' β} (same : r'.prog = r.prog) : r'.Ended := by
    obtain ⟨b, done⟩ := ended
    exact ⟨b, same.trans done⟩
  suffices ∀ r' : Party Act' Ans' β, r'.prog = r.prog → r'.log = r.log → r'.broken = r.broken →
      Settles w w' post ⟨⟨prog, inbox, log, broken⟩, r'⟩ from this r rfl rfl rfl
  induction prog generalizing inbox log broken with
  | done a =>
      exact fun r' same log broken =>
        .ended ⟨⟨a, rfl⟩, still same⟩ (holds _ _ ⟨a, rfl⟩ same log broken)
  | act action next ih =>
    intro r' same log' broken'
    cases role : w.role action with
    | off => exact .left_off rfl role fun answer => ih _ _ _ _ _ same log' broken'
    | send bytes ok failed =>
      exact .left_sends rfl role (ih _ _ _ _ _ same log' broken') fun _ _ _ =>
        ih _ _ _ _ _ same log' broken'
    | receive count ok failed =>
      exact .left_receives rfl role (.inr (still same)) (fun _ => ih _ _ _ _ _ same log' broken')
        (fun _ _ => ih _ _ _ _ _ same log' broken') fun _ _ => ih _ _ _ _ _ same log' broken'
    | poll limit ok failed =>
      exact .left_polls rfl role (.ended (still same)) (.inr (still same))
        (fun _ _ _ _ _ => ih _ _ _ _ _ same log' broken')
        (fun _ _ => ih _ _ _ _ _ same log' broken') fun _ => ih _ _ _ _ _ same log' broken'

end Left

/-- The monitor that watches for actions of one kind. -/
def only (kind : Act → Prop) : Monitor Act Ans Unit where
  allows _ action := kind action
  expects _ _ := True
  next m _ := m

/-- A part of a program that acts elsewhere only. -/
theorem Settles.left_elsewhere {γ : Type} {kind : Act → Prop}
    (off : ∀ action, kind action → w.role action = .off)
    {p : Prog Act Ans γ} {f : γ → Prog Act Ans α} {inbox : Bytes}
    {log : List (Prog.Event Act Ans)} {broken : Bool}
    (elsewhere : (only kind).Obeys p () fun _ _ => True)
    (onward : ∀ events a, p.Path events (.done a) → (∀ event ∈ events, kind event.1) →
      Settles w w' post ⟨⟨f a, inbox, log ++ events, broken⟩, r⟩) :
    Settles w w' post ⟨⟨p.andThen f, inbox, log, broken⟩, r⟩ := by
  induction p generalizing log with
  | done a =>
    have settles := onward [] a (.here _) (by simp)
    rwa [List.append_nil] at settles
  | act action next ih =>
    obtain ⟨allowed, rest⟩ := elsewhere
    have performs : (Prog.act action next).andThen f = .act action fun answer =>
        (next answer).andThen f := rfl
    rw [performs]
    apply Settles.left_off rfl (off action allowed)
    intro answer
    simp only [Party.goes, Bool.or_false]
    apply ih answer (rest answer trivial)
    intro events a path kinds
    rw [List.append_assoc]
    apply onward (⟨action, answer⟩ :: events) a (.step answer path)
    simpa using ⟨allowed, kinds⟩

end Dialogue

end Commeatus.Lib
