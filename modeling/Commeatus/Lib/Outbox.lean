import Mathlib.Data.List.Perm.Basic

/-!
An outbox: messages that an outlet cannot take now wait in a bounded queue.

A fresh message is offered to the outlet at once; the messages that wait are
offered again later, from the front. Whatever the outlet says, every message
that was accepted is delivered, dropped or waiting, exactly once, and those that
wait leave the queue in the order in which they came.
-/

namespace Commeatus.Lib

/-- What the outlet says to a message that it is offered. -/
inductive Verdict where
  | taken
  | later
  | failed
  deriving DecidableEq

/-- The messages so far: all of them; those that wait; those that have waited; and what became of
them. -/
structure Outbox (α : Type) where
  accepted : List α := []
  queue : List α := []
  left : List α := []
  delivered : List α := []
  dropped : List α := []

namespace Outbox

variable {α : Type} {capacity : Nat}

/-- A fresh message. -/
def offer (capacity : Nat) (message : α) (verdict : Verdict) (box : Outbox α) : Outbox α :=
  let box := { box with accepted := box.accepted ++ [message] }
  match verdict with
  | .taken => { box with delivered := box.delivered ++ [message] }
  | .later =>
      if capacity ≤ box.queue.length then { box with dropped := box.dropped ++ [message] }
      else { box with queue := box.queue ++ [message] }
  | .failed => { box with dropped := box.dropped ++ [message] }

/-- The message at the front of the queue, once more. -/
def retry (verdict : Verdict) (box : Outbox α) : Outbox α :=
  match box.queue with
  | [] => box
  | message :: rest =>
      match verdict with
      | .taken =>
          { box with
            queue := rest, left := box.left ++ [message], delivered := box.delivered ++ [message] }
      | .later => box
      | .failed =>
          { box with
            queue := rest, left := box.left ++ [message], dropped := box.dropped ++ [message] }

/-- Nothing is lost or doubled, the queue is bounded, and it is left in order. -/
structure Sound (capacity : Nat) (box : Outbox α) : Prop where
  conserved : box.accepted.Perm (box.delivered ++ box.dropped ++ box.queue)
  bounded : box.queue.length ≤ capacity
  ordered : (box.left ++ box.queue).Sublist box.accepted

theorem sound_empty : Sound capacity ({} : Outbox α) where
  conserved := .refl _
  bounded := Nat.zero_le _
  ordered := .refl _

/-- A message behind the first two parts goes behind the first one. -/
theorem perm_insert (first rest : List α) (message : α) :
    (first ++ rest ++ [message]).Perm (first ++ [message] ++ rest) := by
  rw [List.append_assoc, List.append_assoc]
  exact List.perm_append_comm.append_left first

variable {box : Outbox α}

theorem Sound.offer (sound : Sound capacity box) (message : α) (verdict : Verdict) :
    Sound capacity (box.offer capacity message verdict) := by
  have more := sound.conserved.append_right [message]
  have still : (box.left ++ box.queue).Sublist (box.accepted ++ [message]) :=
    sound.ordered.trans (List.sublist_append_left _ _)
  have drops :
      (box.accepted ++ [message]).Perm
          (box.delivered ++ (box.dropped ++ [message]) ++ box.queue) := by
    rw [← List.append_assoc box.delivered]
    exact more.trans (perm_insert _ _ _)
  cases verdict with
  | taken =>
      have moved := perm_insert box.delivered (box.dropped ++ box.queue) message
      rw [← List.append_assoc, ← List.append_assoc] at moved
      exact ⟨more.trans moved, sound.bounded, still⟩
  | later =>
      unfold Outbox.offer
      dsimp only
      split
      · exact ⟨drops, sound.bounded, still⟩
      · rename_i room
        refine ⟨?_, ?_, ?_⟩
        · rw [← List.append_assoc]
          exact more
        · rw [List.length_append, List.length_singleton]
          exact Nat.lt_of_not_le room
        · rw [← List.append_assoc]
          exact sound.ordered.append_right [message]
  | failed => exact ⟨drops, sound.bounded, still⟩

theorem Sound.retry (sound : Sound capacity box) (verdict : Verdict) :
    Sound capacity (box.retry verdict) := by
  unfold Outbox.retry
  split
  · exact sound
  rename_i message rest queue
  have conserved := sound.conserved
  have bounded := sound.bounded
  have ordered := sound.ordered
  rw [queue] at conserved bounded ordered
  have fewer : rest.length ≤ capacity := Nat.le_of_succ_le bounded
  have still : (box.left ++ [message] ++ rest).Sublist box.accepted := by
    rw [List.append_assoc]
    exact ordered
  cases verdict with
  | taken =>
      have moved : (box.dropped ++ message :: rest).Perm (message :: (box.dropped ++ rest)) :=
        List.perm_middle
      have back := moved.append_left box.delivered
      refine ⟨conserved.trans ?_, fewer, still⟩
      simpa using back
  | later => exact sound
  | failed =>
      refine ⟨conserved.trans ?_, fewer, still⟩
      simp

/-! ### What becomes of a message -/

/-- A fresh message waits where the outlet puts it off and there is room. -/
theorem queue_offer (message : α) (verdict : Verdict) :
    (box.offer capacity message verdict).queue =
      if verdict = .later ∧ box.queue.length < capacity then box.queue ++ [message]
        else box.queue := by
  unfold Outbox.offer
  cases verdict with
  | taken => simp
  | later =>
      dsimp only
      split
      · rename_i full
        rw [if_neg fun room => Nat.not_lt_of_le full room.2]
      · rename_i room
        rw [if_pos ⟨rfl, Nat.lt_of_not_le room⟩]
  | failed => simp

/-- The message at the front stays there where the outlet puts it off again. -/
theorem queue_retry {message : α} {rest : List α} (front : box.queue = message :: rest)
    (verdict : Verdict) :
    (box.retry verdict).queue = if verdict = .later then message :: rest else rest := by
  unfold Outbox.retry
  rw [front]
  cases verdict with
  | taken => rfl
  | later => exact front
  | failed => rfl

theorem delivered_offer (message : α) (verdict : Verdict) :
    (box.offer capacity message verdict).delivered =
      box.delivered ++ if verdict = .taken then [message] else [] := by
  unfold Outbox.offer
  cases verdict with
  | taken => rfl
  | later =>
      dsimp only
      split <;> simp
  | failed => simp

theorem delivered_retry {message : α} {rest : List α} (front : box.queue = message :: rest)
    (verdict : Verdict) :
    (box.retry verdict).delivered = box.delivered ++ if verdict = .taken then
      [message] else [] := by
  unfold Outbox.retry
  rw [front]
  cases verdict with
  | taken => rfl
  | later => simp
  | failed => simp

/-- A message that is dropped was not taken. -/
theorem dropped_offer {message other : α} {verdict : Verdict}
    (member : other ∈ (box.offer capacity message verdict).dropped) :
    other ∈ box.dropped ∨ other = message ∧ verdict ≠ .taken := by
  unfold Outbox.offer at member
  cases verdict with
  | taken => exact .inl member
  | later =>
      dsimp only at member
      split at member
      · exact (List.mem_append.mp member).imp_right fun last =>
          ⟨List.mem_singleton.mp last, by simp⟩
      · exact .inl member
  | failed =>
      exact (List.mem_append.mp member).imp_right fun last => ⟨List.mem_singleton.mp last, by simp⟩

theorem dropped_retry {message other : α} {rest : List α}
    (front : box.queue = message :: rest) {verdict : Verdict}
    (member : other ∈ (box.retry verdict).dropped) : other ∈ box.dropped ∨ other = message ∧
    verdict ≠ .taken := by
  unfold Outbox.retry at member
  rw [front] at member
  cases verdict with
  | taken => exact .inl member
  | later => exact .inl member
  | failed =>
      exact (List.mem_append.mp member).imp_right fun last => ⟨List.mem_singleton.mp last, by simp⟩

end Outbox

end Commeatus.Lib
