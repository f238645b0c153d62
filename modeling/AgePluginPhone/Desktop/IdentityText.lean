import AgePluginPhone.Desktop.AgeIdentity
import AgePluginPhone.Desktop.KeyRoles
import AgePluginPhone.Desktop.PairingSession
import AgePluginPhone.Library.TextFields

/-!
# The identity file

The text of a confirmed pairing's public identity, with the recipient in a comment, and its strict
reader. `bech32::encode` fails for no prefix used here.
-/

namespace AgePluginPhone.Desktop

open Library AgePluginPhone.Core

inductive RecipientType
  | phone
  | tag
  deriving DecidableEq

def identityHrp : String := "age-plugin-phone-"

def toAsciiUppercase (text : String) : String := String.ofList (text.toList.map Char.toUpper)

namespace PublicIdentityStub

section Texts

variable (C : Crates) (stub : PublicIdentityStub)

def phoneRecipient : Except PairingError String :=
  (stub.pairedRecipient C).map (PairedRecipient.toString C)

def tagRecipient : Except PairingError String := do
  let phone ← (Recipient.parse C stub.recipient).mapError fun _ => .malformedStub
  return Tag.recipient C phone

def recipientFor : RecipientType → Except PairingError String
  | .phone => stub.phoneRecipient C
  | .tag => stub.tagRecipient C

def pluginIdentity : String :=
  toAsciiUppercase (Bech32.encode identityHrp (Bech32.wordsOf stub.encode))

def identityFileFor (kind : RecipientType) : Except PairingError String := do
  let recipient ← stub.recipientFor C kind
  return "# recipient: " ++ recipient ++ "\n" ++
    ("# public age-plugin-phone identity stub" ++ "\n" ++ (stub.pluginIdentity ++ "\n"))

end Texts

end PublicIdentityStub

/-- The lines without the white space around them that are neither empty nor comments. -/
def contentLines (text : String) : List String :=
  ((TextFields.lines text).map TextFields.trim).filter fun line =>
    line ≠ "" ∧ line.toList.head? ≠ some '#'

variable (C : Crates) (m : TextMinicbor)

def decodeIdentity (identity : String) : Except PairingError PublicIdentityStub := do
  let (hrp, data, variant) ←
    okOr (C.bech32Decode (Recipient.toAsciiLowercase identity)) .malformedStub
  ensure (hrp = identityHrp ∧ variant = .bech32) .malformedStub
  let bytes ← okOr (BitGroups.exact 5 8 data) .malformedStub
  let stub ← PublicIdentityStub.decode C m (bytes.map Cbor.byte)
  ensure (stub.pluginIdentity = identity) .malformedStub
  return stub

def decodeIdentityStubText (text : String) : Except PairingError PublicIdentityStub :=
  match contentLines text with
  | [identity] => decodeIdentity C m identity
  | _ => .error .malformedStub

/-- What is relied on of `bech32::decode` for the texts of identities. -/
def DecodesIdentities : Prop :=
  ∀ words, (∀ d ∈ words, d < 32) →
    C.bech32Decode (Bech32.encode identityHrp words) = some (identityHrp, words, .bech32)

section Identities

variable {C m} {stub : PublicIdentityStub} {text : String}

private def identityChars : List Char := identityHrp.toList ++ '1' :: Bech32.charset

theorem mem_identityChars {words : List ℕ} {c : Char}
    (h : c ∈ (Bech32.encode identityHrp words).toList) : c ∈ identityChars := by
  rcases Bech32.mem_encode h with hhrp | hrest
  · exact List.mem_append_left _ hhrp
  · exact List.mem_append_right _ hrest

/-- The capital letters of an identity are those of its encoding. -/
theorem lowercase_pluginIdentity : Recipient.toAsciiLowercase stub.pluginIdentity =
    Bech32.encode identityHrp (Bech32.wordsOf stub.encode) := by
  have hchars : identityChars.all (fun c => c.toUpper.toLower == c) := by decide +kernel
  have hsame : ∀ c ∈ (Bech32.encode identityHrp (Bech32.wordsOf stub.encode)).toList,
      (Char.toLower ∘ Char.toUpper) c = c := by
    intro c hc
    exact beq_iff_eq.mp (List.all_eq_true.mp hchars c (mem_identityChars hc))
  rw [Recipient.toAsciiLowercase, PublicIdentityStub.pluginIdentity, toAsciiUppercase,
    String.toList_ofList, List.map_map, List.map_congr_left hsame, List.map_id',
    String.ofList_toList]

theorem mem_pluginIdentity {c : Char} (h : c ∈ stub.pluginIdentity.toList) :
    TextFields.isWhitespace c = false ∧ c ≠ '\n' ∧ c ≠ '\r' ∧ c ≠ '#' := by
  have hchars : identityChars.all (fun c => !TextFields.isWhitespace c.toUpper &&
      (c.toUpper != '\n' && (c.toUpper != '\r' && c.toUpper != '#'))) := by
    decide +kernel
  rw [PublicIdentityStub.pluginIdentity, toAsciiUppercase, String.toList_ofList] at h
  obtain ⟨lower, hlower, rfl⟩ := List.mem_map.mp h
  simpa using List.all_eq_true.mp hchars lower (mem_identityChars hlower)

theorem pluginIdentity_ne_empty : stub.pluginIdentity ≠ "" := by
  intro hempty
  have hlength := congrArg (fun text => text.toList.length) hempty
  simp only [PublicIdentityStub.pluginIdentity, toAsciiUppercase, String.toList_ofList,
    List.length_map, Bech32.encode, String.toList_append, List.length_append] at hlength
  have hone : ("1" : String).toList.length = 1 := rfl
  have hnone : ("" : String).toList.length = 0 := rfl
  omega

/-- The reader accepts exactly the text of a stub that its own decoder accepts. -/
theorem decodeIdentity_eq_ok (hcrate : DecodesIdentities C) {identity : String} :
    decodeIdentity C m identity = .ok stub ↔
      identity = stub.pluginIdentity ∧ PublicIdentityStub.decode C m stub.encode = .ok stub := by
  constructor
  · intro h
    simp only [decodeIdentity, bind_eq_ok, ensure_eq_ok, okOr_eq_ok, pure_eq_ok, exists_const,
      Except.ok.injEq] at h
    obtain ⟨_, -, -, bytes, -, found, hdecode, htext, rfl⟩ := h
    obtain ⟨hbytes, -⟩ := PublicIdentityStub.decode_eq_ok.mp hdecode
    rw [hbytes] at hdecode
    exact ⟨htext.symm, hdecode⟩
  · rintro ⟨rfl, hdecode⟩
    simp only [decodeIdentity, bind_eq_ok, ensure_eq_ok, okOr_eq_ok, pure_eq_ok, exists_const,
      Except.ok.injEq]
    refine ⟨(identityHrp, Bech32.wordsOf stub.encode, .bech32), ?_, ⟨rfl, rfl⟩, _,
      Bech32.exact_wordsOf stub.encode, stub, ?_, rfl, rfl⟩
    · rw [lowercase_pluginIdentity]
      exact hcrate _ (Bech32.wordsOf_lt _)
    · rw [Cbor.map_byte_val]
      exact hdecode

theorem contentLines_of_decode (h : decodeIdentityStubText C m text = .ok stub) :
    ∃ identity, contentLines text = [identity] ∧ decodeIdentity C m identity = .ok stub := by
  unfold decodeIdentityStubText at h
  split at h
  · next identity hlines => exact ⟨identity, hlines, h⟩
  · cases h

end Identities

section Files

variable {stub : PublicIdentityStub} {line rest : String}

/-- A comment is left out of what a text contains. -/
theorem contentLines_comment (hline : '\n' ∉ line.toList) (hreturn : '\r' ∉ line.toList)
    (hcomment : line.toList.head? = some '#') :
    contentLines (line ++ "\n" ++ rest) = contentLines rest := by
  obtain ⟨chars, hchars⟩ := List.head?_eq_some_iff.mp hcomment
  obtain ⟨kept, hkept⟩ := TextFields.trim_of_cons hchars (by decide)
  unfold contentLines
  rw [TextFields.lines_append hline hreturn, List.map_cons, List.filter_cons_of_neg]
  simp [hkept]

theorem contentLines_identity : contentLines (stub.pluginIdentity ++ "\n" ++ rest) =
    stub.pluginIdentity :: contentLines rest := by
  have hline : '\n' ∉ stub.pluginIdentity.toList := fun h => (mem_pluginIdentity h).2.1 rfl
  have hreturn : '\r' ∉ stub.pluginIdentity.toList := fun h => (mem_pluginIdentity h).2.2.1 rfl
  have hcomment : stub.pluginIdentity.toList.head? ≠ some '#' := by
    intro h
    exact (mem_pluginIdentity (List.mem_of_head? h)).2.2.2 rfl
  unfold contentLines
  rw [TextFields.lines_append hline hreturn, List.map_cons,
    TextFields.trim_eq_self fun c hc => (mem_pluginIdentity hc).1, List.filter_cons_of_pos]
  simp [pluginIdentity_ne_empty, hcomment]

theorem contentLines_file {recipient : String} (hline : '\n' ∉ recipient.toList)
    (hreturn : '\r' ∉ recipient.toList) :
    contentLines ("# recipient: " ++ recipient ++ "\n" ++
      ("# public age-plugin-phone identity stub" ++ "\n" ++ (stub.pluginIdentity ++ "\n"))) =
      [stub.pluginIdentity] := by
  have hidentity : contentLines (stub.pluginIdentity ++ "\n" ++ "") = _ := contentLines_identity
  rw [String.append_empty] at hidentity
  rw [contentLines_comment, contentLines_comment, hidentity]
  · rfl
  · decide +kernel
  · decide +kernel
  · decide +kernel
  · rw [String.toList_append, List.mem_append]
    exact fun h => h.elim (by decide +kernel) hline
  · rw [String.toList_append, List.mem_append]
    exact fun h => h.elim (by decide +kernel) hreturn
  · rw [String.toList_append]
    rfl

end Files

section Pairings

variable {C m} {stub : PublicIdentityStub}

private theorem one_line (hrp : String) {words : List ℕ}
    (h : (hrp.toList.all fun c => c != '\n' && c != '\r') = true) :
    '\n' ∉ (Bech32.encode hrp words).toList ∧ '\r' ∉ (Bech32.encode hrp words).toList := by
  have hcharset : (('1' :: Bech32.charset).all fun c => c != '\n' && c != '\r') = true := by
    decide +kernel
  have hchars : ∀ c ∈ (Bech32.encode hrp words).toList, c ≠ '\n' ∧ c ≠ '\r' := by
    intro c hc
    rcases Bech32.mem_encode hc with hmem | hmem
    · simpa using List.all_eq_true.mp h c hmem
    · simpa using List.all_eq_true.mp hcharset c hmem
  exact ⟨fun hmem => (hchars _ hmem).1 rfl, fun hmem => (hchars _ hmem).2 rfl⟩

/-- A stub whose selection key is canonical has a recipient of either kind. -/
theorem recipientFor_ok {identity : C.PublicKey}
    (hrecipient : stub.recipient = Recipient.toString C identity)
    (hselection : ∃ key, stub.desktopSelectionPublicKey = encodePublic C key) (kind : RecipientType) :
    ∃ recipient, stub.recipientFor C kind = .ok recipient ∧ '\n' ∉ recipient.toList ∧
      '\r' ∉ recipient.toList := by
  have hparse := Recipient.parse_eq_ok.mpr hrecipient
  cases kind with
  | phone =>
      obtain ⟨selection, hkey⟩ := hselection
      have hpaired : stub.pairedRecipient C = .ok ⟨identity, selection, stub.identityId⟩ := by
        simp only [PublicIdentityStub.pairedRecipient, bind_eq_ok, mapError_ok,
          fromPublicFields_eq_ok]
        exact ⟨identity, hparse, rfl, congrArg Subtype.val hkey, trivial⟩
      refine ⟨PairedRecipient.toString C ⟨identity, selection, stub.identityId⟩, ?_,
        one_line recipientHrp (by decide +kernel)⟩
      rw [PublicIdentityStub.recipientFor, PublicIdentityStub.phoneRecipient, hpaired]
      rfl
  | tag =>
      refine ⟨Tag.recipient C identity, ?_, one_line Tag.hrp (by decide +kernel)⟩
      rw [PublicIdentityStub.recipientFor, PublicIdentityStub.tagRecipient, hparse]
      rfl

/-- The identity file of a stub, with a recipient of either kind, reads as the stub. -/
theorem identityFile_decodes (hcrate : DecodesIdentities C)
    (hdecode : PublicIdentityStub.decode C m stub.encode = .ok stub)
    (hselection : ∃ key, stub.desktopSelectionPublicKey = encodePublic C key) (kind : RecipientType) :
    ∃ text, stub.identityFileFor C kind = .ok text ∧ decodeIdentityStubText C m text = .ok stub := by
  obtain ⟨-, identity, hconforming⟩ := PublicIdentityStub.decode_eq_ok.mp hdecode
  obtain ⟨recipient, hrecipient, hline, hreturn⟩ :=
    recipientFor_ok hconforming.recipient hselection kind
  refine ⟨_, by rw [PublicIdentityStub.identityFileFor, hrecipient]; rfl, ?_⟩
  rw [decodeIdentityStubText, contentLines_file hline hreturn]
  exact (decodeIdentity_eq_ok hcrate).mpr ⟨rfl, hdecode⟩

/-- What the verifier of a response checks implies what the decoder of its stub checks. -/
theorem stub_of_verified {s : DesktopPairingSession} {response : SignedPairingResponse}
    (h : SignedPairingResponse.verify C response s.offer = .ok ()) (fingerprint : ProtocolDigest) :
    PublicIdentityStub.decode C m (s.stubFromResponse C response fingerprint).encode =
        .ok (s.stubFromResponse C response fingerprint) ∧
      ∃ key, (s.stubFromResponse C response fingerprint).desktopSelectionPublicKey =
        encodePublic C key := by
  obtain ⟨hoffer, ⟨identity, hrecipient, hown, hkeys⟩, -, phone, hphone, -⟩ :=
    SignedPairingResponse.verify_eq_ok.mp h
  obtain ⟨-, ⟨selection, hselection⟩, hroles, signing, hsigning, -⟩ :=
    SignedPairingOffer.verify_eq_ok.mp hoffer
  refine ⟨PublicIdentityStub.decode_eq_ok.mpr ⟨rfl, identity, hrecipient, ?_, ?_⟩, selection,
    hselection⟩
  · have hvalid : (C.fromSec1Bytes s.offer.payload.desktopSelectionPublicKey).isSome := by
      rw [hselection]
      exact Option.isSome_iff_exists.mpr ⟨selection, C.fromSec1Bytes_compressed selection⟩
    simp [DesktopPairingSession.stubFromResponse, hsigning, hphone, hvalid]
  · simp only [List.forall_mem_cons, List.not_mem_nil, false_imp_iff, implies_true,
      and_true] at hkeys
    obtain ⟨⟨h1, h2⟩, h3, h4⟩ := hkeys
    simp [DesktopPairingSession.stubFromResponse, h1, h2, hown, Ne.symm h3, Ne.symm h4,
      Ne.symm hroles]

/-- Over any calls on a session, the stub of a confirmation is the one its encoding and its identity
file of either kind decode to. A text that decodes contains, apart from white space and comments,
exactly the identity of its stub. -/
theorem confirmed_identity_usable (hcrate : DecodesIdentities C) (offer : SignedPairingOffer)
    (startedAtMs : U64) (calls : List DesktopPairingSession.Call) :
    (∀ e ∈ DesktopPairingSession.log C m offer startedAtMs calls, ∀ stub,
      e.result = .ok (.confirmed stub) →
        PublicIdentityStub.decode C m stub.encode = .ok stub ∧
        ∀ kind, ∃ text, stub.identityFileFor C kind = .ok text ∧
          decodeIdentityStubText C m text = .ok stub) ∧
      ∀ text stub, decodeIdentityStubText C m text = .ok stub →
        contentLines text = [stub.pluginIdentity] := by
  constructor
  · intro e he stub hconfirmed
    obtain ⟨before, after, hlog⟩ := List.append_of_mem he
    obtain ⟨_, _, response, -, hawaits, -⟩ :=
      (DesktopPairingSession.log_justified offer startedAtMs calls hlog).confirmed stub hconfirmed
    obtain ⟨_, _, _, _, _, -, -, hverify, -⟩ := hawaits.received
    obtain ⟨hdecode, hselection⟩ := stub_of_verified (m := m)
      (s := ⟨offer, startedAtMs, .waiting⟩) hverify (pairingFingerprint C offer response)
    rw [← hawaits.stub] at hdecode hselection
    exact ⟨hdecode, identityFile_decodes hcrate hdecode hselection⟩
  · intro text stub h
    obtain ⟨identity, hlines, hdecode⟩ := contentLines_of_decode h
    obtain ⟨rfl, -⟩ := (decodeIdentity_eq_ok hcrate).mp hdecode
    exact hlines

end Pairings

section Sample

private theorem identityHrp_no_start (words : List ℕ) :
    ¬ identityHrp.toList <+: (Bech32.encode recipientHrp words).toList := by
  intro h
  have htaken := congrArg (List.take 4) (List.prefix_iff_eq_append.mp h)
  rw [Bech32.encode, String.toList_append, String.toList_append, List.append_assoc] at htaken
  rw [List.take_append_of_le_length (by decide +kernel),
    List.take_append_of_le_length (by decide +kernel)] at htaken
  exact absurd htaken (by decide +kernel)

/-- The crates of the sample pairing, with a decoder for the texts of identities as well. -/
def identityCrates : Crates :=
  { Crates.ofTable (sampleTable false) with
    bech32Decode := fun text =>
      if identityHrp.toList <+: text.toList then
        (Bech32.decode identityHrp text).map fun words => (identityHrp, words, .bech32)
      else (Bech32.decode recipientHrp text).map fun words => (recipientHrp, words, .bech32)
    bech32Decode_encode := by
      intro words h
      rw [if_neg (identityHrp_no_start words), Bech32.decode_encode recipientHrp h]
      rfl }

theorem identityCrates_decodes : DecodesIdentities identityCrates := by
  intro words h
  have hstart : identityHrp.toList <+: (Bech32.encode identityHrp words).toList := by
    rw [Bech32.encode, String.toList_append, String.toList_append, List.append_assoc]
    exact List.prefix_append _ _
  change (if identityHrp.toList <+: (Bech32.encode identityHrp words).toList then _ else _) = _
  rw [if_pos hstart, Bech32.decode_encode identityHrp h]
  rfl

/-- The response to the sample offer and its confirmation. -/
def sampleCalls : List DesktopPairingSession.Call :=
  [.receiveResponse (SignedPairingResponse.encode (sampleResponse false)) 1000,
    .confirm (hex (sampleStub false).transcriptFingerprint) 2000]

theorem confirmed_identity_usable_sample :
    (∀ e ∈ DesktopPairingSession.log identityCrates .definite (sampleOffer false) 0 sampleCalls,
      ∀ stub, e.result = .ok (.confirmed stub) →
        PublicIdentityStub.decode identityCrates .definite stub.encode = .ok stub ∧
        ∀ kind, ∃ text, stub.identityFileFor identityCrates kind = .ok text ∧
          decodeIdentityStubText identityCrates .definite text = .ok stub) ∧
      ∀ text stub, decodeIdentityStubText identityCrates .definite text = .ok stub →
        contentLines text = [stub.pluginIdentity] :=
  confirmed_identity_usable identityCrates_decodes (sampleOffer false) 0 sampleCalls

end Sample

end AgePluginPhone.Desktop
