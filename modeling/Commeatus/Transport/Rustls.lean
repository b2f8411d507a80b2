import Commeatus.Lib.Loop
import Commeatus.Lib.Mio

/-!
The TLS connection under the transport (`transport/src/tls.rs`).

The connection itself is third-party code. `Rustls κ` is its interface on a
state `κ` that stands for the connection and the encrypted socket together;
the two bounds are those of `Write::write` and `Read::read`. The functions here
are the parts of the transport that drive it: interest registration and the two
loops that move ciphertext.
-/

namespace Commeatus.Transport

open Commeatus.Lib

structure Rustls (κ : Type) where
  write : Bytes → κ → Except IoError Nat × κ
  read : Nat → κ → Except IoError Bytes × κ
  wantsRead : κ → Bool
  wantsWrite : κ → Bool
  readTls : κ → Except IoError Nat × κ
  writeTls : κ → Except IoError Nat × κ
  processNewPackets : κ → Except IoError Unit × κ
  sendCloseNotify : κ → κ
  /-- The registry call for the encrypted socket. -/
  registry : RegistryCall → κ → Except IoError Unit × κ
  write_le : ∀ {bytes t n t'}, write bytes t = (.ok n, t') → n ≤ bytes.length
  read_le : ∀ {limit t bytes t'}, read limit t = (.ok bytes, t') → bytes.length ≤ limit

structure Registration where
  registered : Bool := false
  readable : Bool := false
  writable : Bool := false
  deriving DecidableEq

/-- `update_registration`: the registry call it makes, if any, and the state after it. -/
def updateRegistration (readable writable : Bool) (state : Registration) :
    Option RegistryCall × Registration :=
  if !readable && !writable then
    if state.registered then (some .deregister, {}) else (none, state)
  else if !state.registered then (some (.register ⟨readable, writable⟩), ⟨true, readable, writable⟩)
  else if state.readable != readable || state.writable != writable then
    (some (.reregister ⟨readable, writable⟩), { state with readable, writable })
  else (none, state)

variable {κ : Type} (tls : Rustls κ)

/-- One round of `read_remote_tls`; a zero read sets the end-of-stream flag. -/
def readRemoteTlsRound (s : κ × Bool) : Round (Except IoError Unit) × (κ × Bool) :=
  match tls.readTls s.1 with
  | (.ok 0, t) => (.done (.ok ()), (t, true))
  | (.ok _, t) =>
      match tls.processNewPackets t with
      | (.error e, t) => (.done (.error e), (t, s.2))
      | (.ok (), t) => (.again, (t, s.2))
  | (.error e, t) =>
      if e.kind = .wouldBlock then (.done (.ok ()), (t, s.2))
      else if e.kind = .interrupted then (.again, (t, s.2))
      else (.done (.error e), (t, s.2))

/-- `read_remote_tls` on the connection and the end-of-stream flag. -/
def readRemoteTls (rounds : Nat) : Run (κ × Bool) Unit := Run.loop rounds (readRemoteTlsRound tls)

/-- One round of `write_remote_tls`. -/
def writeRemoteTlsRound (t : κ) : Round (Except IoError Unit) × κ :=
  if !tls.wantsWrite t then (.done (.ok ()), t)
  else
    match tls.writeTls t with
    | (.ok 0, t) => (.done (.ok ()), t)
    | (.ok _, t) => (.again, t)
    | (.error e, t) =>
        if e.kind = .wouldBlock then (.done (.ok ()), t)
        else if e.kind = .interrupted then (.again, t)
        else (.done (.error e), t)

def writeRemoteTls (rounds : Nat) : Run κ Unit := Run.loop rounds (writeRemoteTlsRound tls)

/-! ### Framed sessions -/

structure TlsFramedSession (κ : Type) where
  connection : κ
  registration : Registration := {}
  remoteEof : Bool := false

namespace TlsFramedSession

def writePlaintext (buffer : Bytes) : IoM (TlsFramedSession κ) Nat := fun s =>
  let out := tls.write buffer s.connection
  (out.1, { s with connection := out.2 })

def readPlaintext (limit : Nat) : IoM (TlsFramedSession κ) Bytes := fun s =>
  let out := tls.read limit s.connection
  (out.1, { s with connection := out.2 })

/-- `refresh_readiness`. A registry call that fails leaves the registration as it was. -/
def refreshReadiness : IoM (TlsFramedSession κ) Unit := fun s =>
  let readable := !s.remoteEof && tls.wantsRead s.connection
  let writable := tls.wantsWrite s.connection
  match updateRegistration readable writable s.registration with
  | (none, registration) => (.ok (), { s with registration })
  | (some call, registration) =>
      match tls.registry call s.connection with
      | (.ok (), connection) => (.ok (), { s with connection, registration })
      | (.error e, connection) => (.error e, { s with connection })

def registerReadiness : IoM (TlsFramedSession κ) Unit := fun s =>
  if s.registration.registered then
    (.error ⟨.alreadyExists, "framed TLS session is already registered"⟩, s)
  else refreshReadiness tls s

def flushTls (rounds : Nat) : Run (TlsFramedSession κ) Unit :=
  Run.zoom connection (fun connection s => { s with connection }) (writeRemoteTls tls rounds)

def fillTls (rounds : Nat) : Run (TlsFramedSession κ) Unit := fun s =>
  if s.remoteEof then some (.ok (), s)
  else
    Run.zoom (fun s => (s.connection, s.remoteEof))
      (fun out s => { s with connection := out.1, remoteEof := out.2 }) (readRemoteTls tls rounds) s

/-- `service_io`: reading can produce control output, so ciphertext is written before and after. -/
def serviceIo (rounds : Nat) : Run (TlsFramedSession κ) Unit := do
  flushTls tls rounds
  fillTls tls rounds
  flushTls tls rounds

end TlsFramedSession

/-- The length of the TLS 1.3 records for some plaintext: each takes 16 KiB at most and adds its
header, its content type and its tag. -/
def recordBytes (plaintext : Nat) : Nat := plaintext + 22 * ((plaintext + 16383) / 16384)

/-- A connection whose peer neither reads nor writes: the state is the length of the records that
stand in the writer's 64 KiB buffer. -/
def stalled : Rustls Nat where
  write bytes used :=
    (.ok (min bytes.length (65536 - used)), used + recordBytes (min bytes.length (65536 - used)))
  read _ used := (.error ⟨.wouldBlock, "no plaintext"⟩, used)
  wantsRead _ := true
  wantsWrite used := decide (0 < used)
  readTls used := (.error ⟨.wouldBlock, "no ciphertext"⟩, used)
  writeTls used := (.error ⟨.wouldBlock, "no space"⟩, used)
  processNewPackets used := (.ok (), used)
  sendCloseNotify used := used
  registry _ used := (.ok (), used)
  write_le := by
    intro bytes used n used' h
    cases h
    exact min_le_left _ _
  read_le := by
    intro limit used bytes used' h
    cases h

/-- A connection on which the given plaintext has arrived and nothing follows; its writer takes
everything. -/
def serving : Rustls Bytes where
  write bytes plaintext := (.ok bytes.length, plaintext)
  read limit plaintext :=
    if plaintext.isEmpty then (.error ⟨.wouldBlock, "no plaintext"⟩, plaintext)
    else (.ok (plaintext.take limit), plaintext.drop limit)
  wantsRead _ := true
  wantsWrite _ := false
  readTls plaintext := (.error ⟨.wouldBlock, "no ciphertext"⟩, plaintext)
  writeTls plaintext := (.error ⟨.wouldBlock, "no space"⟩, plaintext)
  processNewPackets plaintext := (.ok (), plaintext)
  sendCloseNotify plaintext := plaintext
  registry _ plaintext := (.ok (), plaintext)
  write_le := by
    intro bytes plaintext n plaintext' h
    cases h
    exact le_refl _
  read_le := by
    intro limit plaintext bytes plaintext' h
    split at h
    · cases h
    · cases h
      exact List.length_take_le _ _

/-! ### Recording -/

/-- The same connection, with a record of every plaintext byte its writer accepted. -/
def Rustls.recording : Rustls (κ × Bytes) where
  write bytes s :=
    match tls.write bytes s.1 with
    | (.ok n, t) => (.ok n, (t, s.2 ++ bytes.take n))
    | (.error e, t) => (.error e, (t, s.2))
  read limit s := ((tls.read limit s.1).1, ((tls.read limit s.1).2, s.2))
  wantsRead s := tls.wantsRead s.1
  wantsWrite s := tls.wantsWrite s.1
  readTls s := ((tls.readTls s.1).1, ((tls.readTls s.1).2, s.2))
  writeTls s := ((tls.writeTls s.1).1, ((tls.writeTls s.1).2, s.2))
  processNewPackets s := ((tls.processNewPackets s.1).1, ((tls.processNewPackets s.1).2, s.2))
  sendCloseNotify s := (tls.sendCloseNotify s.1, s.2)
  registry call s := ((tls.registry call s.1).1, ((tls.registry call s.1).2, s.2))
  write_le := by
    intro bytes s n s' h
    match hw : tls.write bytes s.1 with
    | (.ok m, t) =>
        rw [hw] at h
        cases h
        exact tls.write_le hw
    | (.error e, t) =>
        rw [hw] at h
        cases h
  read_le := by
    intro limit s bytes s' h
    exact tls.read_le (Prod.ext (Prod.mk.inj h).1 rfl)

theorem recording_write {bytes : Bytes} {s s' : κ × Bytes} {n : Nat}
    (wrote : tls.recording.write bytes s = (.ok n, s')) : s'.2 = s.2 ++ bytes.take n := by
  simp only [Rustls.recording] at wrote
  split at wrote
  · cases wrote
    rfl
  · cases wrote

theorem recording_write_error {bytes : Bytes} {s s' : κ × Bytes} {e : IoError}
    (failed : tls.recording.write bytes s = (.error e, s')) : s'.2 = s.2 := by
  simp only [Rustls.recording] at failed
  split at failed
  · cases failed
  · cases failed
    rfl

/-- The plaintext accepted so far, of a recorded session. -/
def TlsFramedSession.recorded (s : TlsFramedSession (κ × Bytes)) : Bytes := s.connection.2

theorem writeRemoteTls_recording (rounds : Nat) :
    Run.Keeps Prod.snd (writeRemoteTls tls.recording rounds) := by
  refine .loop fun s => ?_
  unfold writeRemoteTlsRound
  split
  · rfl
  split
  · rename_i h
    exact congrArg (·.2.2) h.symm
  · rename_i h
    exact congrArg (·.2.2) h.symm
  · rename_i e t h
    have kept : t.2 = s.2 := congrArg (·.2.2) h.symm
    split
    · exact kept
    split <;> exact kept

theorem readRemoteTls_recording (rounds : Nat) :
    Run.Keeps (fun s : (κ × Bytes) × Bool => s.1.2) (readRemoteTls tls.recording rounds) := by
  refine .loop fun s => ?_
  unfold readRemoteTlsRound
  split
  · rename_i h
    exact congrArg (·.2.2) h.symm
  · rename_i t _ h
    have kept : t.2 = s.1.2 := congrArg (·.2.2) h.symm
    split
    · rename_i h'
      exact (congrArg (·.2.2) h'.symm).trans kept
    · rename_i h'
      exact (congrArg (·.2.2) h'.symm).trans kept
  · rename_i e t h
    have kept : t.2 = s.1.2 := congrArg (·.2.2) h.symm
    split
    · exact kept
    split <;> exact kept

namespace TlsFramedSession

theorem flushTls_recording (rounds : Nat) : Run.Keeps recorded (flushTls tls.recording rounds) :=
  .zoom (writeRemoteTls_recording tls rounds) fun _ _ kept => kept

theorem fillTls_recording (rounds : Nat) : Run.Keeps recorded (fillTls tls.recording rounds) := by
  intro s result s' h
  unfold fillTls at h
  split at h
  · cases h
    rfl
  · refine Run.Keeps.zoom (readRemoteTls_recording tls rounds) ?_ s result s' h
    exact fun _ _ kept => kept

theorem serviceIo_recording (rounds : Nat) : Run.Keeps recorded (serviceIo tls.recording rounds) :=
  (flushTls_recording tls rounds).bind fun _ =>
    (fillTls_recording tls rounds).bind fun _ => flushTls_recording tls rounds

theorem refreshReadiness_recording (s : TlsFramedSession (κ × Bytes)) :
    (refreshReadiness tls.recording s).2.recorded = s.recorded := by
  unfold refreshReadiness
  dsimp only
  split
  · rfl
  · split
    · rename_i h
      exact congrArg (·.2.2) h.symm
    · rename_i h
      exact congrArg (·.2.2) h.symm

end TlsFramedSession

/-! ### The writer's buffer -/

/-- The writer of rustls: it accepts as much as fits its buffer of 64 KiB. The buffer holds TLS
records, so a write takes at least as much of the room as it accepts, and in general more. -/
structure BufferedWriter (tls : Rustls κ) (free : κ → Nat) : Prop where
  accepts : ∀ bytes t, (tls.write bytes t).1 = .ok (min bytes.length (free t))
  spends : ∀ bytes t, free (tls.write bytes t).2 ≤ free t - min bytes.length (free t)
  limit : ∀ t, free t ≤ 64 * 1024

/-- What a write takes of the room depends on how much it accepts alone. -/
def Charges (tls : Rustls κ) (free : κ → Nat) (charge : Nat → Nat) : Prop :=
  ∀ bytes t, free (tls.write bytes t).2 = free t - charge (min bytes.length (free t))

/-- Written one after the other, each of these finds room for the whole of it. -/
def Fits (tls : Rustls κ) (free : κ → Nat) : List Bytes → κ → Prop
  | [], _ => True
  | bytes :: rest, t => bytes.length ≤ free t ∧ Fits tls free rest (tls.write bytes t).2

/-- Where the charge is known: whatever is written before one of them leaves room for it. -/
theorem Charges.fits_iff {tls : Rustls κ} {free : κ → Nat} {charge : Nat → Nat}
    (charges : Charges tls free charge)
    {chunks : List Bytes} (nonempty : ∀ bytes ∈ chunks, bytes ≠ []) (t : κ) :
    Fits tls free chunks t ↔ ∀ front bytes rest, chunks = front ++ bytes :: rest →
      (front.map fun written => charge written.length).sum + bytes.length ≤ free t := by
  induction chunks generalizing t with
  | nil =>
      refine ⟨fun _ front bytes rest split => ?_, fun _ => trivial⟩
      cases front <;> cases split
  | cons first later ih =>
      have laterFits := ih (fun bytes member => nonempty bytes (List.mem_cons_of_mem first member))
        (tls.write first t).2
      rw [Fits, laterFits]
      have spent : first.length ≤ free t →
          free (tls.write first t).2 = free t - charge first.length := by
        intro room
        rw [charges, min_eq_left room]
      constructor
      · rintro ⟨room, fits⟩ front bytes rest split
        cases front with
        | nil =>
            cases split
            simpa using room
        | cons written front =>
            obtain ⟨rfl, same⟩ := List.cons.inj split
            have fit := fits front bytes rest same
            rw [spent room] at fit
            have some : bytes ≠ [] := nonempty bytes (by simp [same])
            have positive := List.length_pos_iff.mpr some
            simp only [List.map_cons, List.sum_cons]
            omega
      · intro fits
        have room : first.length ≤ free t := by simpa using fits [] first later rfl
        refine ⟨room, fun front bytes rest split => ?_⟩
        have fit := fits (first :: front) bytes rest (by rw [split, List.cons_append])
        simp only [List.map_cons, List.sum_cons] at fit
        rw [spent room]
        omega

theorem BufferedWriter.recording {free : κ → Nat} (writer : BufferedWriter tls free) :
    BufferedWriter tls.recording fun s => free s.1 := by
  refine ⟨fun bytes s => ?_, fun bytes s => ?_, fun s => writer.limit s.1⟩
  · have answer := writer.accepts bytes s.1
    simp only [Rustls.recording]
    split
    · rename_i h
      rw [h] at answer
      exact answer
    · rename_i h
      rw [h] at answer
      cases answer
  · have left := writer.spends bytes s.1
    simp only [Rustls.recording]
    split
    · rename_i h
      rw [h] at left
      exact left
    · rename_i h
      rw [h] at left
      exact left

theorem Charges.recording {tls : Rustls κ} {free : κ → Nat} {charge : Nat → Nat}
    (charges : Charges tls free charge) : Charges tls.recording (fun s => free s.1) charge := by
  intro bytes s
  have spent := charges bytes s.1
  simp only [Rustls.recording]
  split
  · rename_i h
    rw [h] at spent
    exact spent
  · rename_i h
    rw [h] at spent
    exact spent

theorem stalled_charges : Charges stalled (fun used => 65536 - used) recordBytes :=
  fun _ _ => Nat.sub_add_eq _ _ _

theorem stalled_bufferedWriter : BufferedWriter stalled fun used => 65536 - used := by
  refine ⟨fun _ _ => rfl, fun bytes used => ?_, fun used => Nat.sub_le _ _⟩
  have spent := stalled_charges bytes used
  dsimp only at spent ⊢
  rw [spent]
  exact Nat.sub_le_sub_left (Nat.le_add_right _ _) _

/-! ### Connections that do not report a given error -/

/-- No operation besides the writer reports the given error. -/
structure Rustls.Silent (error : IoError) : Prop where
  read : ∀ limit t, (tls.read limit t).1 ≠ .error error
  readTls : ∀ t, (tls.readTls t).1 ≠ .error error
  writeTls : ∀ t, (tls.writeTls t).1 ≠ .error error
  processNewPackets : ∀ t, (tls.processNewPackets t).1 ≠ .error error
  registry : ∀ call t, (tls.registry call t).1 ≠ .error error

variable {tls}

/-- The loop that writes ciphertext fails only as the connection does. -/
theorem writeRemoteTls_never {error : IoError} (silent : ∀ t, (tls.writeTls t).1 ≠ .error error)
    (rounds : Nat) :
    Run.Never error (writeRemoteTls tls rounds) := by
  refine .loop fun t t' h => ?_
  unfold writeRemoteTlsRound at h
  split at h
  · cases h
  split at h
  · cases h
  · cases h
  · rename_i e t₁ failed
    split at h
    · cases h
    split at h
    · cases h
    · cases h
      exact silent t (by rw [failed])

theorem Rustls.Silent.recording {error : IoError} (silent : tls.Silent error) :
    tls.recording.Silent error :=
  ⟨fun limit s => silent.read limit s.1, fun s => silent.readTls s.1, fun s => silent.writeTls s.1,
    fun s => silent.processNewPackets s.1, fun call s => silent.registry call s.1⟩

theorem Rustls.Silent.serviceIo {error : IoError} (silent : tls.Silent error) (rounds : Nat) :
    Run.Never error (TlsFramedSession.serviceIo tls rounds) := by
  have flush : Run.Never error (TlsFramedSession.flushTls tls rounds) :=
    .zoom (writeRemoteTls_never silent.writeTls rounds)
  have fill : Run.Never error (TlsFramedSession.fillTls tls rounds) := by
    have loop : Run.Never error (readRemoteTls tls rounds) := by
      refine .loop fun s s' h => ?_
      unfold readRemoteTlsRound at h
      split at h
      · cases h
      · split at h
        · rename_i failed
          cases h
          exact silent.processNewPackets _ (by rw [failed])
        · cases h
      · rename_i e t₁ failed
        split at h
        · cases h
        split at h
        · cases h
        · cases h
          exact silent.readTls s.1 (by rw [failed])
    intro s s' h
    unfold TlsFramedSession.fillTls at h
    split at h
    · cases h
    · exact loop.zoom s s' h
  exact flush.bind fun _ => fill.bind fun _ => flush

theorem Rustls.Silent.refreshReadiness {error : IoError} (silent : tls.Silent error)
    (s : TlsFramedSession κ) : (TlsFramedSession.refreshReadiness tls s).1 ≠ .error error := by
  unfold TlsFramedSession.refreshReadiness
  dsimp only
  split
  · exact fun h => nomatch h
  · split
    · exact fun h => nomatch h
    · rename_i failed
      intro h
      cases h
      exact silent.registry _ s.connection (by rw [failed])

end Commeatus.Transport
