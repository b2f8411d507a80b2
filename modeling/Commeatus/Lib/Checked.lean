import Commeatus.Lib.Fallible
import Commeatus.Lib.Io

/-!
Code that may panic.

Indexing and slicing panic when they leave the slice, and so do a sum or a
difference that leaves the machine word and a shift by its width or more.
`Checked ε α` is code with such steps in it. That it settles on a result means
that it runs through without a panic, so every access it made was within
bounds; the rules below follow the code step by step.
-/

namespace Commeatus.Lib

variable {ε α β σ : Type}

def isizeMax : Nat := 2 ^ 63 - 1

/-- Code that returns, fails with an error, or gives nothing back because it panics. -/
def Checked (ε α : Type) : Type := Option (Except ε α)

namespace Checked

instance : Monad (Checked ε) where
  pure a := some (.ok a)
  bind x f :=
    match x with
    | none => none
    | some (.error e) => some (.error e)
    | some (.ok a) => f a

/-- A result that was computed without such steps. -/
def ofExcept (x : Except ε α) : Checked ε α := some x

/-- `list[at]`. -/
def index (list : List β) (at_ : Nat) : Checked ε β :=
  match list[at_]? with
  | some b => some (.ok b)
  | none => none

/-- `list.get(start..stop)`. -/
def getRange (list : List β) (start stop : Nat) : Option (List β) :=
  if start ≤ stop ∧ stop ≤ list.length then some ((list.drop start).take (stop - start)) else none

/-- `&list[start..stop]`. -/
def range (list : List β) (start stop : Nat) : Checked ε (List β) :=
  match getRange list start stop with
  | some bs => some (.ok bs)
  | none => none

/-- `a.checked_add(b)`. -/
def checkedAdd (a b : Nat) : Option Nat := if a + b ≤ usizeMax then some (a + b) else none

/-- `a + b`. -/
def sum (a b : Nat) : Checked ε Nat :=
  match checkedAdd a b with
  | some c => some (.ok c)
  | none => none

/-- `a - b`. -/
def difference (a b : Nat) : Checked ε Nat := if b ≤ a then some (.ok (a - b)) else none

/-- `word << amount`. -/
def shiftLeft {w : Nat} (word : BitVec w) (amount : Nat) : Checked ε (BitVec w) :=
  if amount < w then some (.ok (word <<< amount)) else none

/-- `loop { .. }`, cut off after the given number of rounds: a loop that has not ended by then gives
nothing back either. -/
def repeatFor (body : σ → Checked ε (σ ⊕ α)) : Nat → σ → Checked ε α
  | 0, _ => none
  | rounds + 1, s => do
      match ← body s with
      | .inl s => repeatFor body rounds s
      | .inr a => return a

/-- The code runs through, with this result. -/
def Settles (x : Checked ε α) (result : Except ε α) : Prop := x = some result

theorem settles_pure (a : α) : Settles (pure a : Checked ε α) (.ok a) := rfl

theorem settles_ofExcept (x : Except ε α) : Settles (ofExcept x) x := rfl

theorem Settles.bind {x : Checked ε α} {y : Except ε α} {f : α → Checked ε β} {g : α → Except ε β}
    (first : Settles x y)
    (next : ∀ a, y = .ok a → Settles (f a) (g a)) : Settles (x >>= f) (y >>= g) := by
  cases first
  cases y with
  | error e => rfl
  | ok a => exact next a rfl

/-- A step that succeeds for certain. -/
theorem Settles.step {x : Checked ε α} {a : α} {f : α → Checked ε β} {result : Except ε β}
    (first : Settles x (.ok a))
    (next : Settles (f a) result) : Settles (x >>= f) result := by
  cases first
  exact next

theorem settles_index {list : List β} {at_ : Nat} {b : β} (inside : list[at_]? = some b) :
    Settles (index list at_ : Checked ε β) (.ok b) := by
  unfold index
  rw [inside]
  rfl

theorem settles_range {list : List β} {start stop : Nat} (ordered : start ≤ stop)
    (inside : stop ≤ list.length) :
    Settles (range list start stop : Checked ε (List β))
      (.ok ((list.drop start).take (stop - start))) := by
  unfold range getRange
  rw [if_pos ⟨ordered, inside⟩]
  rfl

theorem settles_sum {a b : Nat} (small : a + b ≤ usizeMax) :
    Settles (sum a b : Checked ε Nat) (.ok (a + b)) := by
  unfold sum checkedAdd
  rw [if_pos small]
  rfl

theorem settles_difference {a b : Nat} (below : b ≤ a) :
    Settles (difference a b : Checked ε Nat) (.ok (a - b)) :=
  if_pos below

theorem settles_shiftLeft {w amount : Nat} (word : BitVec w) (narrow : amount < w) :
    Settles (shiftLeft word amount : Checked ε (BitVec w)) (.ok (word <<< amount)) := if_pos narrow

/-- What a round of a loop does to what is still to be computed. -/
inductive RoundOf (body : σ → Checked ε (σ ⊕ α)) (f : σ → Except ε α) (measure : σ → Nat)
    (P : σ → Prop) (s : σ) : Prop where
  | fails (e : ε) (round : Settles (body s) (.error e)) (failed : f s = .error e)
  | ends (a : α) (round : Settles (body s) (.ok (.inr a))) (done : f s = .ok a)
  | goes (next : σ) (round : Settles (body s) (.ok (.inl next))) (same : f s = f next)
      (less : measure next < measure s)
      (keeps : P next)

/-- A loop whose rounds make a measure smaller settles once there are more rounds than the
measure. -/
theorem settles_repeatFor {body : σ → Checked ε (σ ⊕ α)} {f : σ → Except ε α}
    {measure : σ → Nat} {P : σ → Prop}
    (each : ∀ s, P s → RoundOf body f measure P s) {rounds : Nat} {s : σ} (start : P s)
      (enough : measure s < rounds) :
    Settles (repeatFor body rounds s) (f s) := by
  induction rounds generalizing s with
  | zero => omega
  | succ rounds ih =>
      unfold repeatFor
      cases each s start with
      | fails e round failed =>
          rw [failed]
          exact round.bind (g := fun _ => .error e) fun _ no => nomatch no
      | ends a round done =>
          rw [done]
          exact round.step (settles_pure a)
      | goes next round same less keeps =>
          rw [same]
          exact round.step (ih keeps (by omega))

end Checked

end Commeatus.Lib
