import Commeatus.Lib.Loop

/-!
A datagram socket on an edge-triggered poll registry.

The registry owes an event for the socket after it was registered or
reregistered with datagrams waiting, and after a datagram has arrived; once the
event is delivered, what waits is not reported again. `Inbox` is the queue of
the socket with what the registry keeps for it. Datagrams arrive during any
call on the outside: `arrivals` says which, for every world a call can leave.
-/

namespace Commeatus.Lib

variable {ω α β : Type}

/-- `outstanding`: an event is owed. `emptied`: since the last event a read has found nothing. -/
structure Inbox (α : Type) where
  queue : List α
  outstanding : Bool
  emptied : Bool

namespace Inbox

/-- A socket that was just registered; one without datagrams counts as read. -/
def registered (waiting : List α) : Inbox α := ⟨waiting, !waiting.isEmpty, waiting.isEmpty⟩

def arrive (datagrams : List α) (s : Inbox α) : Inbox α :=
  { s with queue := s.queue ++ datagrams, outstanding := s.outstanding || !datagrams.isEmpty }

def reregister (s : Inbox α) : Inbox α :=
  { s with outstanding := s.outstanding || !s.queue.isEmpty }

/-- A readable event is delivered, or none is. -/
def deliver (readable : Bool) (s : Inbox α) : Inbox α :=
  if readable then { s with outstanding := false, emptied := false } else s

/-- A read takes the first datagram, if there is one. -/
def receive (s : Inbox α) : Option α × Inbox α :=
  match s.queue with
  | [] => (none, { s with emptied := true })
  | datagram :: queue => (some datagram, { s with queue })

/-- Since the last event the socket was read until nothing was left, or an event is owed. -/
def Announced (s : Inbox α) : Prop := s.emptied = true ∨ s.outstanding = true

/-- What has arrived after the socket was found empty is owed an event. -/
def Sound (s : Inbox α) : Prop := s.emptied = true → s.queue ≠ [] → s.outstanding = true

/-- An announced socket is owed an event whenever a datagram waits in it. -/
theorem Announced.waiting {s : Inbox α} (announced : s.Announced) (sound : s.Sound)
    (waits : s.queue ≠ []) :
    s.outstanding = true := by
  rcases announced with emptied | owed
  · exact sound emptied waits
  · exact owed

theorem announced_registered (waiting : List α) : (registered waiting).Announced := by
  cases waiting with
  | nil => exact .inl rfl
  | cons datagram waiting => exact .inr rfl

theorem sound_registered (waiting : List α) : (registered waiting).Sound := by
  intro _ waits
  cases waiting with
  | nil => exact absurd rfl waits
  | cons datagram waiting => rfl

theorem Announced.arrive {s : Inbox α} (announced : s.Announced) (datagrams : List α) :
    (s.arrive datagrams).Announced := by
  rcases announced with emptied | owed
  · exact .inl emptied
  · exact .inr (by simp [Inbox.arrive, owed])

theorem Sound.arrive {s : Inbox α} (sound : s.Sound) (datagrams : List α) :
    (s.arrive datagrams).Sound := by
  intro emptied waits
  cases datagrams with
  | nil =>
      have waits : s.queue ≠ [] := by simpa [Inbox.arrive] using waits
      simp [Inbox.arrive, sound emptied waits]
  | cons datagram datagrams => simp [Inbox.arrive]

theorem Announced.reregister {s : Inbox α} (announced : s.Announced) : s.reregister.Announced := by
  rcases announced with emptied | owed
  · exact .inl emptied
  · exact .inr (by simp [Inbox.reregister, owed])

theorem Sound.reregister {s : Inbox α} (sound : s.Sound) : s.reregister.Sound := by
  intro emptied waits
  simp [Inbox.reregister, sound emptied waits]

theorem Sound.deliver {s : Inbox α} (sound : s.Sound) (readable : Bool) :
    (s.deliver readable).Sound := by
  cases readable with
  | false => exact sound
  | true => exact fun emptied => nomatch emptied

theorem Sound.receive {s : Inbox α} (sound : s.Sound) : s.receive.2.Sound := by
  unfold Inbox.receive
  split
  · rename_i empty
    exact fun _ waits => absurd empty waits
  · rename_i datagram queue front
    intro emptied _
    exact sound emptied (by rw [front]; exact List.cons_ne_nil _ _)

/-- A read that finds nothing leaves the socket announced. -/
theorem announced_of_receive {s : Inbox α} (nothing : s.receive.1 = none) :
    s.receive.2.Announced := by
  unfold Inbox.receive at nothing ⊢
  split
  · exact .inl rfl
  · rename_i front
    simp only [front] at nothing
    cases nothing

/-! ### Beside the rest of the world -/

/-- A call that does not touch the socket; datagrams may arrive while it is made. -/
def beside (arrivals : ω → List α) (x : IoM ω β) : IoM (ω × Inbox α) β := fun s =>
  ((x s.1).1, ((x s.1).2, s.2.arrive (arrivals (x s.1).2)))

/-- The same for a call that cannot fail. -/
def besideValue (arrivals : ω → List α) (x : ω → β × ω) :
    ω × Inbox α → β × (ω × Inbox α) := fun s =>
  ((x s.1).1, ((x s.1).2, s.2.arrive (arrivals (x s.1).2)))

/-- The world after a call, with what has arrived. -/
def after (arrivals : ω → List α) (world : ω) (s : ω × Inbox α) : ω × Inbox α :=
  (world, s.2.arrive (arrivals world))

/-- A poll; `readable` says whether it delivered an event for the socket. -/
def besidePoll (arrivals : ω → List α) (readable : β → Bool) (x : IoM ω β) :
    IoM (ω × Inbox α) β := fun s =>
  match x s.1 with
  | (.error e, world) => (.error e, after arrivals world s)
  | (.ok batch, world) =>
      (.ok batch, (world, (s.2.arrive (arrivals world)).deliver (readable batch)))

/-- A poll leaves the socket announced, unless it delivers an event for it. -/
theorem besidePoll_cases {arrivals : ω → List α} {readable : β → Bool}
    {x : IoM ω β} {s s' : ω × Inbox α}
    {result : Except IoError β} (sound : s.2.Sound) (announced : s.2.Announced)
    (polled : besidePoll arrivals readable x s = (result, s')) :
    s'.2.Sound ∧ ((∃ batch, result = .ok batch ∧ readable batch = true) ∨ s'.2.Announced) := by
  unfold besidePoll at polled
  split at polled
  · cases polled
    exact ⟨sound.arrive _, .inr (announced.arrive _)⟩
  · rename_i batch world _
    cases polled
    refine ⟨(sound.arrive _).deliver _, ?_⟩
    cases delivered : readable batch with
    | true => exact .inl ⟨batch, rfl, delivered⟩
    | false => exact .inr (announced.arrive _)

/-- A read from the socket that nothing interrupts; `nothing` is its error where no datagram
waits. -/
def take {φ : Type} (arrivals : ω → List α) (nothing : φ) (world : ω) (s : ω × Inbox α) :
    Except φ α × (ω × Inbox α) :=
  match s.2.receive with
  | (none, inbox) => (.error nothing, (world, inbox.arrive (arrivals world)))
  | (some datagram, inbox) => (.ok datagram, (world, inbox.arrive (arrivals world)))

/-- A read finds a datagram, or it finds the socket empty. -/
theorem take_cases {φ : Type} {arrivals : ω → List α} {nothing : φ} {world : ω} {s s' : ω × Inbox α}
    {result : Except φ α} (sound : s.2.Sound)
    (read : take arrivals nothing world s = (result, s')) :
    s'.2.Sound ∧ ((∃ datagram, result = .ok datagram) ∨
      (result = .error nothing ∧ s'.2.Announced)) := by
  have next := sound.receive
  unfold take at read
  match received : s.2.receive with
  | (none, inbox) =>
      have announced := announced_of_receive (s := s.2) (by rw [received])
      rw [received] at read next announced
      cases read
      exact ⟨next.arrive _, .inr ⟨rfl, announced.arrive _⟩⟩
  | (some datagram, inbox) =>
      rw [received] at read next
      cases read
      exact ⟨next.arrive _, .inl ⟨datagram, rfl⟩⟩

/-- A property that arrivals and registrations leave alone. -/
structure Stable (P : Inbox α → Prop) : Prop where
  arrive : ∀ {s} datagrams, P s → P (s.arrive datagrams)
  reregister : ∀ {s}, P s → P s.reregister

theorem stable_sound : Stable (Sound (α := α)) :=
  ⟨fun datagrams sound => sound.arrive datagrams, fun sound => sound.reregister⟩

theorem stable_announced : Stable fun s : Inbox α => s.Sound ∧ s.Announced :=
  ⟨fun datagrams both => ⟨both.1.arrive datagrams, both.2.arrive datagrams⟩,
    fun both => ⟨both.1.reregister, both.2.reregister⟩⟩

end Inbox

end Commeatus.Lib
