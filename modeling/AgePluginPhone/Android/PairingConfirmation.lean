import AgePluginPhone.Android.PairingInvariant
import AgePluginPhone.Android.QrFraming
import AgePluginPhone.Library.HexText
import AgePluginPhone.Library.Machine
import AgePluginPhone.Library.Splits

/-!
# Android pairing confirmation

`PairingConfirmationSession` holds one verified transcript, `PairingConfirmationCoordinator` the
session that waits for the user. A call of the coordinator leaves its lock before it enters the
lock of a session, so a process takes one locked section of one call at a time.
-/

namespace AgePluginPhone.Android

open Library

structure VerifiedPairingOffer where
  desktopId : Bytes 16
  desktopLabel : String
  desktopSigningPublicKey : Bytes 33
  desktopSelectionPublicKey : Bytes 33
  encoded : List Byte
  digest : Digest

structure VerifiedPairingResponse where
  identityId : Bytes 16
  recipient : String
  phoneSigningPublicKey : Bytes 33
  encoded : List Byte

/-- The verification of the two signed messages of a transcript. -/
structure OfflineEnvelopeCrypto where
  verifyPairingOffer : List Byte → Option VerifiedPairingOffer
  verifyPairingResponse : List Byte → VerifiedPairingOffer → Option VerifiedPairingResponse

def fingerprintDomain : List Byte := utf8 "age-plugin-phone/pairing-fingerprint/v2"

def pairingFingerprint (p : Platform) (offer : VerifiedPairingOffer)
    (response : VerifiedPairingResponse) : Digest :=
  p.sha256 (fingerprintDomain ++ [0] ++ (offer.encoded ++ response.encoded))

def StoredPairingRecord.fromVerifiedTranscript (p : Platform) (offer : VerifiedPairingOffer)
    (response : VerifiedPairingResponse) : StoredPairingRecord where
  desktopId := offer.desktopId
  identityId := response.identityId
  desktopLabel := offer.desktopLabel
  recipient := response.recipient
  desktopSigningPublicKey := offer.desktopSigningPublicKey
  desktopSelectionPublicKey := offer.desktopSelectionPublicKey
  phoneSigningPublicKey := response.phoneSigningPublicKey
  offerDigest := offer.digest
  transcriptFingerprint := pairingFingerprint p offer response

structure PairingConfirmationDisplay where
  desktopLabel : String
  transcriptFingerprint : String
  deriving DecidableEq

structure CommittedPairingDisplay where
  desktopLabel : String
  transcriptFingerprint : String
  deriving DecidableEq

/-- What a call of the state creator comes to, with the closing of the store it returns. -/
inductive Creation
  | stored
  | pairingStateException (category : Category)
  | exception
  | error
  deriving DecidableEq

/-- A state creator, with its effect on the storage. -/
abbrev PairingStateCreator (Storage : Type) : Type :=
  StoredPairingRecord → Long → Storage → Creation × Storage

/-- `PairingStateStore.create`, and the closing of the store, under a fault schedule. -/
def PairingStateStore.create (p : Platform) (capacity : ℕ) (faults : List Fault) :
    PairingStateCreator World := fun record nowUnix w =>
  match w.execute (do createAt p record nowUnix capacity; close (record.file p)) faults with
  | (.ok _, w) => (.stored, w)
  | (.error (.failure category), w) => (.pairingStateException category, w)
  | (.error .crash, w) => (.error, w)

structure PairingConfirmationSession where
  display : PairingConfirmationDisplay
  record : StoredPairingRecord
  expectedFingerprint : Digest
  terminal : Bool

namespace PairingConfirmationSession

inductive Category
  | alreadyPaired
  | fingerprintMismatch
  | malformedTranscript
  | sessionActive
  | sessionClosed
  | storage
  deriving DecidableEq

/-- A `PairingConfirmationException`, or an error that is no exception. -/
inductive Thrown
  | pairingConfirmationException (category : Category)
  | error
  deriving DecidableEq

def encodeFingerprint (value : List Byte) : String := String.ofList (HexText.encode value)

def decodeCanonicalFingerprint (value : String) : Option (List Byte) :=
  if Qr.utf16Length value ≠ 64 ∨
      ∃ c ∈ value.toList, ¬ ('0' ≤ c ∧ c ≤ '9') ∧ ¬ ('a' ≤ c ∧ c ≤ 'f') then none
  else HexText.decode value.toList

def beginWithCreator (p : Platform) (crypto : OfflineEnvelopeCrypto)
    (signedOffer signedResponse : List Byte) : Except Category PairingConfirmationSession := do
  let offer ← okOr (crypto.verifyPairingOffer signedOffer) .malformedTranscript
  let response ← okOr (crypto.verifyPairingResponse signedResponse offer) .malformedTranscript
  let record := StoredPairingRecord.fromVerifiedTranscript p offer response
  (validateRecord p record).mapError fun _ => .malformedTranscript
  let fingerprint := record.transcriptFingerprint
  return {
    display := ⟨record.desktopLabel, encodeFingerprint fingerprint⟩
    record
    expectedFingerprint := fingerprint
    terminal := false }

/-- What a confirmation returns or throws, and what its call of the creator came to. -/
structure Confirmation (Storage : Type) where
  result : Except Thrown CommittedPairingDisplay
  created : Option Creation
  session : PairingConfirmationSession
  storage : Storage

/-- The result of a confirmation from that of its creation. -/
def commit (session : PairingConfirmationSession) : Creation → Except Thrown CommittedPairingDisplay
  | .stored => .ok ⟨session.display.desktopLabel, session.display.transcriptFingerprint⟩
  | .pairingStateException category => .error (.pairingConfirmationException
      (if category = .alreadyExists then .alreadyPaired else .storage))
  | .exception => .error (.pairingConfirmationException .storage)
  | .error => .error .error

variable {Storage : Type}

def confirm (session : PairingConfirmationSession) (displayedFingerprint : String) (nowUnix : Long)
    (creator : PairingStateCreator Storage) (storage : Storage) : Confirmation Storage :=
  if session.terminal then
    ⟨.error (.pairingConfirmationException .sessionClosed), none, session, storage⟩
  else
    let session := { session with terminal := true }
    if decodeCanonicalFingerprint displayedFingerprint ≠ some session.expectedFingerprint.1 then
      ⟨.error (.pairingConfirmationException .fingerprintMismatch), none, session, storage⟩
    else
      let created := creator session.record nowUnix storage
      ⟨session.commit created.1, some created.1, session, created.2⟩

def cancel (session : PairingConfirmationSession) : PairingConfirmationSession :=
  { session with terminal := true }

theorem beginWithCreator_eq_ok {p : Platform} {crypto : OfflineEnvelopeCrypto}
    {signedOffer signedResponse : List Byte}
    {session : PairingConfirmationSession}
    (h : beginWithCreator p crypto signedOffer signedResponse = .ok session) :
    session.terminal = false ∧ session.expectedFingerprint = session.record.transcriptFingerprint := by
  simp only [beginWithCreator, bind_eq_ok, pure_eq_ok, Except.ok.injEq] at h
  obtain ⟨_, -, _, -, _, -, rfl⟩ := h
  exact ⟨rfl, rfl⟩

section Fingerprint

private theorem utf16Length_of_small {s : String} (h : ∀ c ∈ s.toList, c.toNat < 65536) :
    Qr.utf16Length s = s.toList.length := by
  have hone : ∀ c ∈ s.toList, (if c.toNat < 65536 then 1 else 2) = 1 := fun c hc => if_pos (h c hc)
  rw [Qr.utf16Length, List.map_congr_left hone, List.map_const', List.sum_replicate, smul_eq_mul,
    Nat.mul_one]

private theorem alphabet_ranges : ∀ c ∈ HexText.alphabet,
    ('0' ≤ c ∧ c ≤ '9') ∨ ('a' ≤ c ∧ c ≤ 'f') := by
  rw [← List.all_iff_forall_prop]
  decide

private theorem small_of_range {c : Char} (h : ('0' ≤ c ∧ c ≤ '9') ∨ ('a' ≤ c ∧ c ≤ 'f')) :
    c.toNat < 65536 := by
  rcases h with h | h
  · exact lt_of_le_of_lt (show c.toNat ≤ '9'.toNat from h.2) (by decide)
  · exact lt_of_le_of_lt (show c.toNat ≤ 'f'.toNat from h.2) (by decide)

/-- A digest is read from its full lower-case form and from nothing else. -/
theorem decodeCanonicalFingerprint_eq_some {displayed : String} {fingerprint : Digest} :
    decodeCanonicalFingerprint displayed = some fingerprint.1 ↔
      displayed = encodeFingerprint fingerprint.1 := by
  unfold decodeCanonicalFingerprint
  constructor
  · intro h
    split_ifs at h with hform
    obtain ⟨hlength, hrange⟩ := not_or.mp hform
    have hranges : ∀ c ∈ displayed.toList, ('0' ≤ c ∧ c ≤ '9') ∨ ('a' ≤ c ∧ c ≤ 'f') := by
      intro c hc
      by_contra hnone
      exact hrange ⟨c, hc, not_or.mp hnone⟩
    have hsize : displayed.toList.length = 64 := by
      rw [← utf16Length_of_small fun c hc => small_of_range (hranges c hc)]
      exact not_not.mp hlength
    rw [encodeFingerprint, HexText.encode_of_decode (by rw [hsize]; decide) h, String.ofList_toList]
  · rintro rfl
    have hlist : (encodeFingerprint fingerprint.1).toList = HexText.encode fingerprint.1 :=
      String.toList_ofList
    have hranges : ∀ c ∈ HexText.encode fingerprint.1,
        ('0' ≤ c ∧ c ≤ '9') ∨ ('a' ≤ c ∧ c ≤ 'f') :=
      fun c hc => alphabet_ranges c (HexText.mem_encode hc)
    have hlength : Qr.utf16Length (encodeFingerprint fingerprint.1) = 64 := by
      rw [utf16Length_of_small, hlist, HexText.encode_length, fingerprint.2]
      rw [hlist]
      exact fun c hc => small_of_range (hranges c hc)
    rw [if_neg, hlist, HexText.decode_encode]
    rintro (hwrong | hwrong)
    · exact hwrong hlength
    · obtain ⟨c, hc, hdigit, hletter⟩ := hwrong
      rw [hlist] at hc
      rcases hranges c hc with h | h
      · exact hdigit h
      · exact hletter h

end Fingerprint

/-- A closed session throws; an open one is closed, and calls its creator on its full fingerprint. -/
theorem Confirmation.cases (session : PairingConfirmationSession) (displayed : String)
    (nowUnix : Long) (creator : PairingStateCreator Storage) (storage : Storage) :
    session.terminal = true ∧ session.confirm displayed nowUnix creator storage =
        ⟨.error (.pairingConfirmationException .sessionClosed), none, session, storage⟩ ∨
      session.terminal = false ∧ displayed ≠ encodeFingerprint session.expectedFingerprint.1 ∧
        session.confirm displayed nowUnix creator storage =
          ⟨.error (.pairingConfirmationException .fingerprintMismatch), none, session.cancel, storage⟩ ∨
      session.terminal = false ∧ displayed = encodeFingerprint session.expectedFingerprint.1 ∧
        session.confirm displayed nowUnix creator storage =
          ⟨session.commit (creator session.record nowUnix storage).1,
            some (creator session.record nowUnix storage).1, session.cancel,
            (creator session.record nowUnix storage).2⟩ := by
  unfold PairingConfirmationSession.confirm
  cases hterminal : session.terminal with
  | true => exact Or.inl ⟨rfl, by rw [if_pos rfl]⟩
  | false =>
      rw [if_neg Bool.false_ne_true]
      dsimp only
      by_cases hfingerprint : displayed = encodeFingerprint session.expectedFingerprint.1
      · have hdecode := decodeCanonicalFingerprint_eq_some.mpr hfingerprint
        rw [if_neg (not_not.mpr hdecode)]
        exact Or.inr (Or.inr ⟨rfl, hfingerprint, rfl⟩)
      · have hdecode : decodeCanonicalFingerprint displayed ≠ some session.expectedFingerprint.1 :=
          fun h => hfingerprint (decodeCanonicalFingerprint_eq_some.mp h)
        rw [if_pos hdecode]
        exact Or.inr (Or.inl ⟨rfl, hfingerprint, rfl⟩)

theorem Confirmation.session_eq (session : PairingConfirmationSession) (displayed : String)
    (nowUnix : Long) (creator : PairingStateCreator Storage) (storage : Storage) :
    (session.confirm displayed nowUnix creator storage).session = session.cancel := by
  rcases Confirmation.cases session displayed nowUnix creator storage with hclosed | hwrong | hright
  · rw [hclosed.2]
    obtain ⟨display, record, expected, terminal⟩ := session
    obtain rfl : terminal = true := hclosed.1
    rfl
  · rw [hwrong.2.2]
  · rw [hright.2.2]

theorem Confirmation.created_eq_some {session : PairingConfirmationSession} {displayed : String}
    {nowUnix : Long} {creator : PairingStateCreator Storage} {storage : Storage}
    {created : Creation}
    (h : (session.confirm displayed nowUnix creator storage).created = some created) :
    session.terminal = false ∧ displayed = encodeFingerprint session.expectedFingerprint.1 := by
  rcases Confirmation.cases session displayed nowUnix creator storage with hclosed | hwrong | hright
  · rw [hclosed.2] at h
    cases h
  · rw [hwrong.2.2] at h
    cases h
  · exact ⟨hright.1, hright.2.1⟩

/-- A confirmation that does not call the creator leaves the storage. -/
theorem Confirmation.storage_eq {session : PairingConfirmationSession} {displayed : String}
    {nowUnix : Long} {creator : PairingStateCreator Storage} {storage : Storage}
    (h : (session.confirm displayed nowUnix creator storage).created = none) :
    (session.confirm displayed nowUnix creator storage).storage = storage := by
  rcases Confirmation.cases session displayed nowUnix creator storage with hclosed | hwrong | hright
  · rw [hclosed.2]
  · rw [hwrong.2.2]
  · rw [hright.2.2] at h
    cases h

section Durable

variable {p : Platform} {record : StoredPairingRecord} {nowUnix : Long} {capacity : ℕ} {faults : List Fault}

/-- A creation that reports success has stored its record and left no store open on it. -/
theorem create_stored {w w' : World}
    (h : PairingStateStore.create p capacity faults record nowUnix w = (.stored, w')) :
    w'.files.lookup (.live (record.file p)) =
        some (encode (initialState record nowUnix capacity)) ∧
      w'.opened.lookup (record.file p) = none := by
  have htriple : StorageM.Triple (fun _ => True)
      (do createAt p record nowUnix capacity; close (record.file p))
      (fun _ w => w.files.lookup (.live (record.file p)) =
          some (encode (initialState record nowUnix capacity)) ∧
        w.opened.lookup (record.file p) = none) fun _ _ => True := by
    refine StorageM.Triple.bind ?_ fun _ => StorageM.Triple.modify fun w hw => ⟨hw, by simp⟩
    unfold createAt
    refine StorageM.Triple.check_bind (fun _ _ => ?_) fun _ _ _ _ => trivial
    refine StorageM.Triple.check_bind (fun _ _ => ?_) fun _ _ _ _ => trivial
    refine StorageM.Triple.check_bind (fun _ _ => ?_) fun _ _ _ _ => trivial
    refine StorageM.Triple.seq (fun _ _ => True) ?_ fun _ => ?_
    · exact StorageM.Triple.load_bind fun _ => StorageM.Triple.check (fun _ _ _ _ => trivial)
        fun _ _ _ _ => trivial
    · refine StorageM.Triple.load_bind fun w => ?_
      refine StorageM.Triple.check_bind (fun _ _ => ?_) fun _ _ _ _ => trivial
      refine StorageM.Triple.bind ((commit_stores _ _).weaken (fun _ _ => trivial)
        (fun _ _ h => h) fun _ _ _ => trivial) fun _ => ?_
      exact StorageM.Triple.modify fun w hw => hw
  have hends := htriple w faults trivial
  unfold PairingStateStore.create at h
  split at h
  · rename_i result after hresult
    obtain ⟨-, rfl⟩ := Prod.mk.inj h
    obtain ⟨hvalue, rfl⟩ := execute_ok hresult
    exact hends.of_ok hvalue
  · cases h
  · cases h

/-- A confirmation that returns a display has stored the session's record. -/
theorem Confirmation.stored {session : PairingConfirmationSession} {displayed : String} {w : World}
    {committed : CommittedPairingDisplay}
    (h : (session.confirm displayed nowUnix (PairingStateStore.create p capacity faults) w).result =
      .ok committed) :
    (session.confirm displayed nowUnix (PairingStateStore.create p capacity faults) w).storage.files.lookup
        (.live (session.record.file p)) =
      some (encode (initialState session.record nowUnix capacity)) := by
  rcases Confirmation.cases session displayed nowUnix (PairingStateStore.create p capacity faults) w with
    hclosed | hwrong | hright
  · rw [hclosed.2] at h
    cases h
  · rw [hwrong.2.2] at h
    cases h
  · rw [hright.2.2] at h ⊢
    cases hcreate : PairingStateStore.create p capacity faults session.record nowUnix w with
    | mk created w' =>
        rw [hcreate] at h
        cases created with
        | stored => exact (create_stored hcreate).1
        | pairingStateException category => cases h
        | exception => cases h
        | error => cases h

end Durable

end PairingConfirmationSession

namespace PairingConfirmation

open PairingConfirmationSession (Thrown Confirmation)

/-- A call on the coordinator, or on a session the factory has made. -/
inductive Call (Storage : Type)
  | begin (signedOffer signedResponse : List Byte)
  | confirm (displayedFingerprint : String) (nowUnix : Long) (creator : PairingStateCreator Storage)
  | cancel
  | sessionConfirm (session : ℕ) (displayedFingerprint : String) (nowUnix : Long)
      (creator : PairingStateCreator Storage)
  | sessionCancel (session : ℕ)

/-- What is left of a call of the coordinator after its first section. -/
inductive Remaining (Storage : Type)
  | begin (session : ℕ)
  | confirm (session : ℕ) (displayedFingerprint : String) (nowUnix : Long)
      (creator : PairingStateCreator Storage)
  | cancel (session : ℕ)

/-- The coordinator's slot, the sessions the factory has made, and the calls between two sections. -/
structure Process (Storage : Type) where
  pending : Option ℕ
  sessions : List PairingConfirmationSession
  storage : Storage
  running : List (Remaining Storage)

/-- Start a call, or go on with one. -/
inductive Event (Storage : Type)
  | call (call : Call Storage)
  | resume (index : ℕ)

/-- What one section did. -/
inductive Action
  | began (signedOffer signedResponse : List Byte)
      (result : Except PairingConfirmationSession.Category ℕ)
  | registered (session : ℕ)
      (result : Except PairingConfirmationSession.Category PairingConfirmationDisplay)
  | took (session : ℕ)
  | tookNothing (result : Except PairingConfirmationSession.Category Unit)
  | confirmed (session : ℕ) (displayedFingerprint : String) (nowUnix : Long)
      (result : Except Thrown CommittedPairingDisplay) (created : Option Creation)
  | cancelled (session : ℕ)
  deriving DecidableEq

variable {Storage : Type}

namespace Process

def start (storage : Storage) : Process Storage := ⟨none, [], storage, []⟩

/-- Keep the new state of a session. -/
def update (s : Process Storage) (index : ℕ) (session : PairingConfirmationSession) :
    Process Storage := { s with sessions := s.sessions.set index session }

/-- Leave the rest of a call for later. -/
def later (s : Process Storage) (rest : Remaining Storage) : Process Storage :=
  { s with running := s.running ++ [rest] }

/-- `begin` up to the lock: the factory makes a session. -/
def beginCall (p : Platform) (crypto : OfflineEnvelopeCrypto) (s : Process Storage)
    (signedOffer signedResponse : List Byte) : Action × Process Storage :=
  match PairingConfirmationSession.beginWithCreator p crypto signedOffer signedResponse with
  | .error category => (.began signedOffer signedResponse (.error category), s)
  | .ok session =>
      (.began signedOffer signedResponse (.ok s.sessions.length),
        { s with sessions := s.sessions ++ [session] }.later (.begin s.sessions.length))

/-- The locked section of `begin`. -/
def register (s : Process Storage) (index : ℕ) (session : PairingConfirmationSession) :
    Action × Process Storage :=
  match s.pending with
  | some _ => (.registered index (.error .sessionActive), s.update index session.cancel)
  | none => (.registered index (.ok session.display), { s with pending := some index })

/-- The locked section of the coordinator's `confirm` and `cancel`. -/
def take (s : Process Storage) (otherwise : Except PairingConfirmationSession.Category Unit)
    (rest : ℕ → Remaining Storage) : Action × Process Storage :=
  match s.pending with
  | some index => (.took index, { s with pending := none }.later (rest index))
  | none => (.tookNothing otherwise, s)

def confirmSession (s : Process Storage) (index : ℕ) (session : PairingConfirmationSession)
    (displayedFingerprint : String) (nowUnix : Long) (creator : PairingStateCreator Storage) :
    Action × Process Storage :=
  let outcome := session.confirm displayedFingerprint nowUnix creator s.storage
  (.confirmed index displayedFingerprint nowUnix outcome.result outcome.created,
    { s.update index outcome.session with storage := outcome.storage })

def cancelSession (s : Process Storage) (index : ℕ) (session : PairingConfirmationSession) :
    Action × Process Storage := (.cancelled index, s.update index session.cancel)

/-- The rest of a call of the coordinator. -/
def finish (s : Process Storage) : Remaining Storage → Option (Action × Process Storage)
  | .begin index => s.sessions[index]?.map fun session => s.register index session
  | .confirm index displayed nowUnix creator =>
      s.sessions[index]?.map fun session => s.confirmSession index session displayed nowUnix creator
  | .cancel index => s.sessions[index]?.map fun session => s.cancelSession index session

def perform (p : Platform) (crypto : OfflineEnvelopeCrypto) (s : Process Storage) :
    Event Storage → Option (Action × Process Storage)
  | .call (.begin signedOffer signedResponse) =>
      some (s.beginCall p crypto signedOffer signedResponse)
  | .call (.confirm displayed nowUnix creator) =>
      some (s.take (.error .sessionClosed) fun index => .confirm index displayed nowUnix creator)
  | .call .cancel => some (s.take (.ok ()) .cancel)
  | .call (.sessionConfirm index displayed nowUnix creator) =>
      s.sessions[index]?.map fun session => s.confirmSession index session displayed nowUnix creator
  | .call (.sessionCancel index) =>
      s.sessions[index]?.map fun session => s.cancelSession index session
  | .resume index => s.running[index]?.bind fun rest =>
      { s with running := s.running.eraseIdx index }.finish rest

def step (p : Platform) (crypto : OfflineEnvelopeCrypto) (s : Process Storage)
    (event : Event Storage) : Option (Process Storage) := (s.perform p crypto event).map Prod.snd

def act (p : Platform) (crypto : OfflineEnvelopeCrypto) (s : Process Storage)
    (event : Event Storage) : Option Action := (s.perform p crypto event).map Prod.fst

end Process

/-- What the sections of a run did. -/
def log (p : Platform) (crypto : OfflineEnvelopeCrypto) (storage : Storage)
    (events : List (Event Storage)) : List Action :=
  Machine.emitted (Process.step p crypto) (Process.act p crypto) (Process.start storage) events

end PairingConfirmation

end AgePluginPhone.Android
