import AgePluginPhone.Library.CborItem
import AgePluginPhone.Library.ExpiringSet
import AgePluginPhone.Library.Fallible

/-!
# Android pairing state

The record and replay entries one pairing file holds, their validation, and their canonical
CBOR form. Byte-array lengths fixed by the Kotlin checks are carried in the types.
-/

namespace AgePluginPhone.Android

open Library Cbor

/-- A Kotlin `Long`. -/
abbrev Long := {n : ℤ // -9223372036854775808 ≤ n ∧ n < 9223372036854775808}

instance : LinearOrder Long := @Subtype.instLinearOrder ℤ Int.instLinearOrder _

instance : LT Long := ⟨fun a b => a.1 < b.1⟩

instance : LE Long := ⟨fun a b => a.1 ≤ b.1⟩

instance (a b : Long) : Decidable (a < b) := inferInstanceAs (Decidable (a.1 < b.1))

instance (a b : Long) : Decidable (a ≤ b) := inferInstanceAs (Decidable (a.1 ≤ b.1))

abbrev Digest := Bytes 32

inductive Category
  | alreadyExists
  | capacity
  | clockRollback
  | deletionPending
  | expired
  | lifetime
  | locked
  | malformed
  | missing
  | replay
  | storage
  | wrongScope
  deriving DecidableEq, Repr

/-- What the store takes from the platform: Jackson's CBOR tree reader, whose writer emits the
shortest form, the P-256 recipient and point decoders, and SHA-256. `readTree` yields `none`
also for trees with a node kind the store never writes. -/
structure Platform where
  readTree : List Byte → Option Item
  readTree_encode : ∀ item, item.Bounded 4 → readTree item.encode = some item
  /-- The compressed key inside a recipient, as `encodeCompressed (decodeRecipient _)`. -/
  identityPublic : String → Option (Bytes 33)
  identityPublic_length : ∀ recipient key, identityPublic recipient = some key →
    (utf8 recipient).length ≤ 90
  /-- Whether `decodeCompressed` accepts the bytes. -/
  decodeCompressed : Bytes 33 → Bool
  sha256 : List Byte → Digest

structure StoredPairingRecord where
  desktopId : Bytes 16
  identityId : Bytes 16
  desktopLabel : String
  recipient : String
  desktopSigningPublicKey : Bytes 33
  desktopSelectionPublicKey : Bytes 33
  phoneSigningPublicKey : Bytes 33
  offerDigest : Digest
  transcriptFingerprint : Digest
  deriving DecidableEq

structure Entry where
  requestId : Bytes 16
  nonce : Bytes 32
  expiresAtUnix : Long
  deriving DecidableEq

namespace Entry

/-- `entryComparator`: unsigned lexicographic identifier, nonce, then expiry. -/
def sortKey (e : Entry) : List Byte ×ₗ List Byte ×ₗ ℤ :=
  toLex (e.requestId.1, toLex (e.nonce.1, e.expiresAtUnix.1))

theorem sortKey_injective : Function.Injective sortKey := by
  intro a b h
  simp only [sortKey, EmbeddingLike.apply_eq_iff_eq, Prod.mk.injEq] at h
  cases a
  cases b
  simp only [Entry.mk.injEq]
  exact ⟨Subtype.ext h.1, Subtype.ext h.2.1, Subtype.ext h.2.2⟩

instance : LinearOrder Entry := LinearOrder.lift' sortKey sortKey_injective

/-- The replay test: the same request identifier or the same nonce. -/
def Clashes (a b : Entry) : Prop := a.requestId = b.requestId ∨ a.nonce = b.nonce

instance (a b : Entry) : Decidable (a.Clashes b) := inferInstanceAs (Decidable (_ ∨ _))

theorem Clashes.symm {a b : Entry} (h : a.Clashes b) : b.Clashes a := h.imp Eq.symm Eq.symm

end Entry

structure State where
  record : StoredPairingRecord
  createdAtUnix : Long
  lastSeenUnix : Long
  capacity : ℕ
  entries : List Entry
  deriving DecidableEq

def maxCapacity : ℕ := 16384

def maxStateBytes : ℕ := 1048576

def stateVersion : ℕ := 2

section Encoding

def entryItem (e : Entry) : Item :=
  .array [.bytes e.requestId, .bytes e.nonce, .integer e.expiresAtUnix]

def State.item (s : State) : Item :=
  .array [.unsigned stateVersion, .bytes s.record.desktopId, .bytes s.record.identityId,
    .text s.record.desktopLabel, .text s.record.recipient,
    .bytes s.record.desktopSigningPublicKey, .bytes s.record.desktopSelectionPublicKey,
    .bytes s.record.phoneSigningPublicKey, .bytes s.record.offerDigest,
    .bytes s.record.transcriptFingerprint, .integer s.createdAtUnix, .integer s.lastSeenUnix,
    .unsigned s.capacity, .array (s.entries.map entryItem)]

def encode (s : State) : List Byte := s.item.encode

end Encoding

section Validation

variable (p : Platform)

def validateRecord (record : StoredPairingRecord) : Except Category Unit := do
  ensure ((utf8 record.desktopLabel).length ≤ 64) .malformed
  let identityPublic ← okOr (p.identityPublic record.recipient) .malformed
  ensure (p.decodeCompressed record.desktopSigningPublicKey ∧
    p.decodeCompressed record.desktopSelectionPublicKey ∧
    p.decodeCompressed record.phoneSigningPublicKey) .malformed
  ensure (identityPublic ≠ record.desktopSigningPublicKey ∧
    identityPublic ≠ record.desktopSelectionPublicKey ∧
    identityPublic ≠ record.phoneSigningPublicKey ∧
    record.desktopSigningPublicKey ≠ record.desktopSelectionPublicKey ∧
    record.desktopSelectionPublicKey ≠ record.phoneSigningPublicKey ∧
    record.desktopSigningPublicKey ≠ record.phoneSigningPublicKey) .malformed

def validateCapacity (capacity : ℕ) : Except Category Unit :=
  ensure (1 ≤ capacity ∧ capacity ≤ maxCapacity) .capacity

/-- `validateState`; its loop accepts strictly increasing entries without a repeated identifier
or nonce. -/
def validateState (s : State) : Except Category Unit :=
  ensure (0 ≤ s.createdAtUnix.1 ∧ s.createdAtUnix ≤ s.lastSeenUnix ∧
    (∀ e ∈ s.entries, s.lastSeenUnix ≤ e.expiresAtUnix) ∧ s.entries.IsChain (· < ·) ∧
    (s.entries.map Entry.requestId).Nodup ∧ (s.entries.map Entry.nonce).Nodup) .malformed

def strictArray (encoded : List Byte) (size : ℕ) : Except Category (List Item) :=
  match p.readTree encoded with
  | some (.array items) =>
      if items.length = size ∧ (Item.array items).encode = encoded then .ok items
      else .error .malformed
  | _ => .error .malformed

def bytes (size : ℕ) : Item → Except Category (Bytes size)
  | .bytes content => if h : content.length = size then .ok ⟨content, h⟩ else .error .malformed
  | _ => .error .malformed

def text (maxBytes : ℕ) : Item → Except Category String
  | .text content => if (utf8 content).length ≤ maxBytes then .ok content else .error .malformed
  | _ => .error .malformed

def unsignedLong : Item → Except Category Long
  | .unsigned n =>
      if h : n < 9223372036854775808 then .ok ⟨n, by omega, by omega⟩ else .error .malformed
  | _ => .error .malformed

def unsignedInt : Item → Except Category ℕ
  | .unsigned n => if n < 2147483648 then .ok n else .error .malformed
  | _ => .error .malformed

def decodeEntry : Item → Except Category Entry
  | .array [requestId, nonce, expires] => do
      let requestId ← bytes 16 requestId
      let nonce ← bytes 32 nonce
      let expires ← unsignedLong expires
      return ⟨requestId, nonce, expires⟩
  | _ => .error .malformed

def decodeEntries (capacity : ℕ) : Item → Except Category (List Entry)
  | .array items => do
      ensure (items.length ≤ capacity) .capacity
      items.mapM decodeEntry
  | _ => .error .malformed

def decode (encoded : List Byte) : Except Category State := do
  match ← strictArray p encoded 14 with
  | [version, desktopId, identityId, label, recipient, signing, selection, phoneSigning,
      offerDigest, fingerprint, created, seen, capacity, entries] =>
      let version ← unsignedInt version
      ensure (version = stateVersion) .malformed
      let desktopId ← bytes 16 desktopId
      let identityId ← bytes 16 identityId
      let label ← text 64 label
      let recipient ← text 160 recipient
      let signing ← bytes 33 signing
      let selection ← bytes 33 selection
      let phoneSigning ← bytes 33 phoneSigning
      let offerDigest ← bytes 32 offerDigest
      let fingerprint ← bytes 32 fingerprint
      let created ← unsignedLong created
      let seen ← unsignedLong seen
      let capacity ← unsignedInt capacity
      let record : StoredPairingRecord := ⟨desktopId, identityId, label, recipient, signing,
        selection, phoneSigning, offerDigest, fingerprint⟩
      validateRecord p record
      validateCapacity capacity
      let entries ← decodeEntries capacity entries
      let state : State := ⟨record, created, seen, capacity, entries⟩
      validateState state
      ensure (encode state = encoded) .malformed
      return state
  | _ => .error .malformed

end Validation

/-- What every state the store commits satisfies. -/
structure State.WellFormed (p : Platform) (s : State) : Prop where
  record : validateRecord p s.record = .ok ()
  capacity : 1 ≤ s.capacity ∧ s.capacity ≤ maxCapacity
  created : 0 ≤ s.createdAtUnix.1
  seen : s.createdAtUnix ≤ s.lastSeenUnix
  length : s.entries.length ≤ s.capacity
  live : ∀ e ∈ s.entries, s.lastSeenUnix ≤ e.expiresAtUnix
  sorted : s.entries.Pairwise (· < ·)
  unique : s.entries.Pairwise fun a b => ¬ a.Clashes b

section RoundTrip

variable {p : Platform}

private theorem bytes_item {n : ℕ} (b : Bytes n) : bytes n (.bytes b) = .ok b := by
  simp [bytes, b.2]

private theorem integer_nonneg {n : ℤ} (h : 0 ≤ n) : Item.integer n = .unsigned n.toNat := by
  cases n with
  | ofNat n => rfl
  | negSucc n => omega

private theorem unsignedLong_item {n : Long} (h : 0 ≤ n.1) : unsignedLong (.integer n) = .ok n := by
  have hlt : n.1.toNat < 9223372036854775808 := by have := n.2.2; omega
  have hn : (n.1.toNat : ℤ) = n.1 := Int.toNat_of_nonneg h
  simp only [integer_nonneg h, unsignedLong, dif_pos hlt, Except.ok.injEq]
  exact Subtype.ext hn

private theorem decodeEntry_item {e : Entry} (h : 0 ≤ e.expiresAtUnix.1) :
    decodeEntry (entryItem e) = .ok e := by
  simp [decodeEntry, entryItem, bytes_item, unsignedLong_item h]

private theorem mapM_entryItem {entries : List Entry} (h : ∀ e ∈ entries, 0 ≤ e.expiresAtUnix.1) :
    (entries.map entryItem).mapM decodeEntry = .ok entries := by
  have hitems : entries.mapM (decodeEntry ∘ entryItem) = .ok (entries.map id) :=
    mapM_eq_ok fun e he => decodeEntry_item (h e he)
  rw [List.mapM_map, hitems, List.map_id]

private theorem text_item {content : String} {n : ℕ} (h : (utf8 content).length ≤ n) :
    text n (.text content) = .ok content := by
  simp [text, h]

theorem validateRecord_eq_ok {record : StoredPairingRecord} {u : Unit}
    (h : validateRecord p record = .ok u) :
    (utf8 record.desktopLabel).length ≤ 64 ∧ (utf8 record.recipient).length ≤ 90 := by
  simp only [validateRecord, bind_eq_ok, ensure_eq_ok, okOr_eq_ok, exists_const] at h
  obtain ⟨hlabel, key, hkey, -⟩ := h
  exact ⟨hlabel, p.identityPublic_length _ _ hkey⟩

theorem State.WellFormed.nodup {s : State} (h : s.WellFormed p) :
    (s.entries.map Entry.requestId).Nodup ∧ (s.entries.map Entry.nonce).Nodup := by
  simp only [List.Nodup, List.pairwise_map]
  exact ⟨h.unique.imp fun hab heq => hab (Or.inl heq), h.unique.imp fun hab heq => hab (Or.inr heq)⟩

theorem State.WellFormed.expires_nonneg {s : State} (h : s.WellFormed p) :
    ∀ e ∈ s.entries, 0 ≤ e.expiresAtUnix.1 := by
  intro e he
  have hlive : s.lastSeenUnix.1 ≤ e.expiresAtUnix.1 := h.live e he
  have hseen : s.createdAtUnix.1 ≤ s.lastSeenUnix.1 := h.seen
  have := h.created
  omega

private theorem entryItem_bounded (e : Entry) : (entryItem e).Bounded 2 := by
  refine .array (by simp) ?_
  simp only [List.forall_mem_cons, List.not_mem_nil, false_implies, implies_true, and_true]
  exact ⟨.bytes (by rw [e.requestId.2]; decide), .bytes (by rw [e.nonce.2]; decide),
    Item.bounded_integer e.expiresAtUnix.2.1 e.expiresAtUnix.2.2⟩

private theorem bytes_bounded {n depth : ℕ} (hn : n < 2 ^ 64) (b : Bytes n) :
    (Item.bytes b).Bounded (depth + 1) :=
  .bytes (by rw [b.2]; exact hn)

theorem State.WellFormed.item_bounded {s : State} (h : s.WellFormed p) : s.item.Bounded 4 := by
  obtain ⟨hlabel, hrecipient⟩ := validateRecord_eq_ok h.record
  have hcap := h.capacity.2
  have hlen := h.length
  simp only [maxCapacity] at hcap
  refine .array (by simp) ?_
  simp only [List.forall_mem_cons, List.not_mem_nil, false_implies, implies_true, and_true]
  refine ⟨.unsigned (by decide), bytes_bounded (by decide) _, bytes_bounded (by decide) _,
    .text (by omega), .text (by omega), bytes_bounded (by decide) _, bytes_bounded (by decide) _,
    bytes_bounded (by decide) _, bytes_bounded (by decide) _, bytes_bounded (by decide) _,
    Item.bounded_integer s.createdAtUnix.2.1 s.createdAtUnix.2.2,
    Item.bounded_integer s.lastSeenUnix.2.1 s.lastSeenUnix.2.2, .unsigned (by omega), ?_⟩
  refine .array (by simp only [List.length_map]; omega) ?_
  simp only [List.mem_map, forall_exists_index, and_imp, forall_apply_eq_imp_iff₂]
  exact fun e _ => entryItem_bounded e

theorem State.WellFormed.validateState {s : State} (h : s.WellFormed p) :
    Android.validateState s = .ok () := by
  simp only [Android.validateState, ensure_eq_ok, List.isChain_iff_pairwise]
  exact ⟨h.created, h.seen, h.live, h.sorted, h.nodup⟩

/-- A well-formed state is read back from its own file. -/
theorem decode_encode {s : State} (h : s.WellFormed p) : decode p (encode s) = .ok s := by
  obtain ⟨hlabel, hrecipient⟩ := validateRecord_eq_ok h.record
  have hread : p.readTree (encode s) = some s.item := p.readTree_encode _ h.item_bounded
  have hcreated := unsignedLong_item h.created
  have hseen : unsignedLong (.integer s.lastSeenUnix) = .ok s.lastSeenUnix :=
    unsignedLong_item (le_trans h.created h.seen)
  have hcap : s.capacity < 2147483648 := by have := h.capacity.2; simp only [maxCapacity] at this; omega
  have hentries : decodeEntries s.capacity (.array (s.entries.map entryItem)) = .ok s.entries := by
    simp [decodeEntries, ensure, h.length, mapM_entryItem h.expires_nonneg]
  have hcapacity : validateCapacity s.capacity = .ok () := by
    simpa [validateCapacity] using h.capacity
  have hvalid := h.validateState
  have hrecord := h.record
  have hstrict : strictArray p (encode s) 14 = .ok
      [.unsigned stateVersion, .bytes s.record.desktopId, .bytes s.record.identityId,
        .text s.record.desktopLabel, .text s.record.recipient,
        .bytes s.record.desktopSigningPublicKey, .bytes s.record.desktopSelectionPublicKey,
        .bytes s.record.phoneSigningPublicKey, .bytes s.record.offerDigest,
        .bytes s.record.transcriptFingerprint, .integer s.createdAtUnix,
        .integer s.lastSeenUnix, .unsigned s.capacity, .array (s.entries.map entryItem)] := by
    simp only [strictArray, hread, State.item]
    exact if_pos ⟨rfl, rfl⟩
  have hversion : unsignedInt (.unsigned stateVersion) = .ok stateVersion := rfl
  have hcapacity' : unsignedInt (.unsigned s.capacity) = .ok s.capacity := by
    simp [unsignedInt, hcap]
  simp only [decode, hstrict, ok_bind, hversion, ensure_true, bytes_item, text_item hlabel,
    text_item (hrecipient.trans (show 90 ≤ 160 by decide)), hcreated, hseen, hcapacity', hrecord,
    hcapacity, hentries, hvalid, pure_eq_ok]

theorem encode_injective {s t : State} (hs : s.WellFormed p) (ht : t.WellFormed p)
    (h : encode s = encode t) : s = t := by
  have hdecode := decode_encode hs
  rw [h, decode_encode ht] at hdecode
  exact (Except.ok.inj hdecode).symm

end RoundTrip

end AgePluginPhone.Android
