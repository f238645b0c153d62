import AgePluginPhone.Core.MessageCodec
import AgePluginPhone.Library.DigitText

/-!
# The public identity stub

The desktop's record of a confirmed pairing, with the strict decoder of its canonical encoding.
-/

namespace AgePluginPhone.Desktop

open Library AgePluginPhone.Core

section Hex

def hexDigits : List Char := "0123456789abcdef".toList

/-- Two lower-case digits for each byte. -/
def hex (bytes : List Byte) : String :=
  String.ofList (DigitText.spell hexDigits '0' (bytes.flatMap fun b => [b.val / 16, b.val % 16]))

theorem hex_mem (bytes : List Byte) : ∀ c ∈ (hex bytes).toList, c ∈ hexDigits := by
  intro c hc
  rw [hex, String.toList_ofList] at hc
  rcases DigitText.mem_spell hc with hmem | hzero
  · exact hmem
  · rw [hzero]
    decide

theorem hex_length (bytes : List Byte) : (hex bytes).toList.length = 2 * bytes.length := by
  rw [hex, String.toList_ofList, DigitText.spell_length]
  simp [List.length_flatMap, Nat.mul_comm]

theorem utf8_hex_length (bytes : List Byte) : (utf8 (hex bytes)).length = 2 * bytes.length := by
  rw [hex, DigitText.utf8_spell_length (by decide) (by decide)]
  simp [List.length_flatMap, Nat.mul_comm]

end Hex

inductive PairingError
  | sessionClosed
  | timeout
  | invalidResponse
  | fingerprintMismatch
  | malformedStub
  | unsupportedStub
  deriving DecidableEq

structure PublicIdentityStub where
  desktopId : Id
  identityId : Id
  recipient : String
  desktopSigningPublicKey : EncodedPublicKey
  desktopSelectionPublicKey : EncodedPublicKey
  phoneSigningPublicKey : EncodedPublicKey
  offerDigest : ProtocolDigest
  transcriptFingerprint : ProtocolDigest
  deriving DecidableEq

def stubVersion : U16 := 2

def pluginName : String := "phone"

namespace PublicIdentityStub

/-- The encoding up to the name of the plugin. -/
def encodeFields (stub : PublicIdentityStub) : List Byte :=
  encodeArray 11 ++ (encodeUnsigned stubVersion ++ (encodeUnsigned algorithmSuite ++
    (encodeBytes stub.desktopId ++ (encodeBytes stub.identityId ++ (encodeStr stub.recipient ++
      (encodeBytes stub.desktopSigningPublicKey ++ (encodeBytes stub.desktopSelectionPublicKey ++
        (encodeBytes stub.phoneSigningPublicKey ++ (encodeBytes stub.offerDigest ++
          encodeBytes stub.transcriptFingerprint)))))))))

def encode (stub : PublicIdentityStub) : List Byte := stub.encodeFields ++ encodeStr pluginName

abbrev Decode := StateT (List Byte) (Except PairingError)

variable (C : Crates) (m : TextMinicbor)

def field {α : Type} (reader : List Byte → Option (α × List Byte)) : Decode α :=
  fun input => okOr (reader input) .malformedStub

def check (condition : Prop) [Decidable condition] (failure : PairingError) : Decode Unit :=
  fun input => (ensure condition failure).map fun _ => ((), input)

def fixed (n : ℕ) : Decode (Bytes n) := do
  let bytes ← field m.bytes
  if h : bytes.length = n then return ⟨bytes, h⟩ else throw .malformedStub

def fields : Decode PublicIdentityStub := do
  let count ← field m.array
  check (count = some 11) .malformedStub
  let version ← field m.u16
  check (version = stubVersion) .unsupportedStub
  let suite ← field m.u16
  check (suite = algorithmSuite) .unsupportedStub
  let desktopId ← fixed m 16
  let identityId ← fixed m 16
  let recipient ← field m.str
  let desktopSigningPublicKey ← fixed m 33
  let desktopSelectionPublicKey ← fixed m 33
  let phoneSigningPublicKey ← fixed m 33
  let offerDigest ← fixed m 32
  let transcriptFingerprint ← fixed m 32
  return ⟨desktopId, identityId, recipient, desktopSigningPublicKey, desktopSelectionPublicKey,
    phoneSigningPublicKey, offerDigest, transcriptFingerprint⟩

def decode (bytes : List Byte) : Except PairingError PublicIdentityStub := do
  let (value, rest) ← fields m bytes
  let recipient ← (Recipient.parse C value.recipient).mapError fun _ => .malformedStub
  let identityPublicKey := encodePublic C recipient
  let (name, rest) ← okOr (m.str rest) .malformedStub
  ensure (name = pluginName ∧ rest = [] ∧ value.encode = bytes ∧
    (C.fromSec1Bytes value.desktopSigningPublicKey).isSome ∧
    (C.fromSec1Bytes value.desktopSelectionPublicKey).isSome ∧
    value.desktopSelectionPublicKey ≠ value.desktopSigningPublicKey ∧
    (C.fromSec1Bytes value.phoneSigningPublicKey).isSome ∧
    identityPublicKey ≠ value.desktopSigningPublicKey ∧
    identityPublicKey ≠ value.desktopSelectionPublicKey ∧
    identityPublicKey ≠ value.phoneSigningPublicKey ∧
    value.phoneSigningPublicKey ≠ value.desktopSigningPublicKey ∧
    value.phoneSigningPublicKey ≠ value.desktopSelectionPublicKey) .malformedStub
  return value

section Specifications

variable {C m}

private theorem field_reads {α : Type} {reader : List Byte → Option (α × List Byte)}
    {bytes : List Byte} {a : α} (h : ∀ rest, reader (bytes ++ rest) = some (a, rest)) :
    Reads (field reader) bytes a := by
  intro rest
  rw [field, h rest]
  rfl

private theorem check_reads {condition : Prop} [Decidable condition] (failure : PairingError)
    (h : condition) : Reads (check condition failure) [] () := by
  intro rest
  rw [check, ensure_true failure h]
  rfl

private theorem fixed_reads {n : ℕ} (hn : n < 2 ^ 64) (b : Bytes n) :
    Reads (fixed m n) (encodeBytes b) b := by
  have hread : Reads (field m.bytes) (encodeBytes b) b.1 :=
    field_reads (m.bytes_encodeBytes b.1 · (by rw [b.2]; exact hn))
  apply hread.bind_end
  rw [dif_pos b.2]
  exact Reads.pure b

theorem fields_reads {stub : PublicIdentityStub} (h : (utf8 stub.recipient).length < 2 ^ 64) :
    Reads (fields m) stub.encodeFields stub := by
  apply (field_reads (m.array_encodeArray 11 · (by decide))).bind
  apply (check_reads .malformedStub rfl).bind_nil
  apply (field_reads (m.u16_encodeUnsigned stubVersion)).bind
  apply (check_reads .unsupportedStub rfl).bind_nil
  apply (field_reads (m.u16_encodeUnsigned algorithmSuite)).bind
  apply (check_reads .unsupportedStub rfl).bind_nil
  apply (fixed_reads (by decide) stub.desktopId).bind
  apply (fixed_reads (by decide) stub.identityId).bind
  apply (field_reads (m.str_encodeStr stub.recipient · h)).bind
  apply (fixed_reads (by decide) stub.desktopSigningPublicKey).bind
  apply (fixed_reads (by decide) stub.desktopSelectionPublicKey).bind
  apply (fixed_reads (by decide) stub.phoneSigningPublicKey).bind
  apply (fixed_reads (by decide) stub.offerDigest).bind
  apply (fixed_reads (by decide) stub.transcriptFingerprint).bind_end
  exact Reads.pure stub

variable (C) in
/-- What the decoder checks of the keys in a stub. -/
structure Conforming (stub : PublicIdentityStub) (identity : C.PublicKey) : Prop where
  recipient : stub.recipient = Recipient.toString C identity
  valid : ∀ bytes ∈ [stub.desktopSigningPublicKey, stub.desktopSelectionPublicKey,
    stub.phoneSigningPublicKey], (C.fromSec1Bytes bytes).isSome
  distinct : [encodePublic C identity, stub.desktopSigningPublicKey,
    stub.desktopSelectionPublicKey, stub.phoneSigningPublicKey].Pairwise (· ≠ ·)

/-- A stub decodes exactly from its own encoding. -/
theorem decode_eq_ok {bytes : List Byte} {stub : PublicIdentityStub} :
    decode C m bytes = .ok stub ↔ bytes = stub.encode ∧ ∃ identity, Conforming C stub identity := by
  simp only [decode, bind_eq_ok, ensure_eq_ok, okOr_eq_ok, pure_eq_ok, exists_const,
    Except.ok.injEq, mapError_ok, Recipient.parse_eq_ok]
  constructor
  · intro hparts
    obtain ⟨⟨found, rest⟩, hfields, identity, hrecipient, ⟨name, after⟩, hname, hchecks, hfound⟩ :=
      hparts
    simp only at hrecipient hchecks hfound
    subst hfound
    obtain ⟨_, _, hencode, hsigning, hselection, hdesktop, hphone, h1, h2, h3, h4, h5⟩ := hchecks
    refine ⟨hencode.symm, identity, hrecipient, ?_, ?_⟩
    · simp [hsigning, hselection, hphone]
    · simp [h1, h2, h3, Ne.symm h4, Ne.symm h5, Ne.symm hdesktop]
  · intro hparts
    obtain ⟨hbytes, identity, hrecipient, hvalid, hdistinct⟩ := hparts
    have hlength : (utf8 stub.recipient).length < 2 ^ 64 := by
      rw [hrecipient, Recipient.toString_length]
      decide
    have hname := m.str_encodeStr pluginName [] (by decide +kernel)
    rw [List.append_nil] at hname
    subst hbytes
    refine ⟨_, fields_reads hlength _, identity, hrecipient, _, hname, ?_, rfl⟩
    simp only [List.forall_mem_cons, List.pairwise_cons, List.not_mem_nil, false_imp_iff,
      implies_true, and_true] at hvalid hdistinct
    obtain ⟨hsigning, hselection, hphone⟩ := hvalid
    obtain ⟨⟨h1, h2, h3⟩, ⟨hdesktop, h4⟩, h5, -⟩ := hdistinct
    exact ⟨rfl, rfl, rfl, hsigning, hselection, Ne.symm hdesktop, hphone, h1, h2, h3, Ne.symm h4,
      Ne.symm h5⟩

end Specifications

end PublicIdentityStub

end AgePluginPhone.Desktop
