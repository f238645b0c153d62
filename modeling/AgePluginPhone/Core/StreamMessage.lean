import AgePluginPhone.Library.Cbor

/-!
# Messages on a stream

The layout of a message: a header of 28 bytes that ends in the length of the body, and the body.
-/

namespace AgePluginPhone.Core.StreamMessage

open Library Cbor

def magic : List Byte := [0x41, 0x50, 0x54, 0x53]

def headerLen : ℕ := 28

def maxMessageBytes : ℕ := 65536

def header (purpose direction : Byte) (sessionId : Bytes 16) (length : ℕ) : List Byte :=
  magic ++ ([0, 1, purpose, direction] ++ (sessionId.1 ++ bigEndian 4 length))

def message (purpose direction : Byte) (sessionId : Bytes 16) (body : List Byte) : List Byte :=
  header purpose direction sessionId body.length ++ body

/-- A byte string that is not a message of this purpose, direction and session. -/
inductive Broken (purpose direction : Byte) (expected : Option (Bytes 16)) (bytes : List Byte) : Prop
  | truncated (otherPurpose otherDirection : Byte) (sessionId : Bytes 16) (body : List Byte)
      (hbody : body.length ≤ maxMessageBytes)
      (hstarts : bytes <+: message otherPurpose otherDirection sessionId body)
      (h : bytes ≠ message otherPurpose otherDirection sessionId body)
  | magic (h : bytes.take 4 ≠ magic)
  | version (h : (bytes.drop 4).take 2 ≠ [0, 1])
  | purpose (h : (bytes.drop 6).take 1 ≠ [purpose])
  | direction (h : (bytes.drop 7).take 1 ≠ [direction])
  | length (h : maxMessageBytes < bigEndianValue ((bytes.drop 24).take 4))
  | session (id : Bytes 16) (hexpected : expected = some id) (h : (bytes.drop 8).take 16 ≠ id.1)

/-- The bytes from a place on, one at a time. -/
theorem take_drop_succ {bytes : List Byte} {i : ℕ} (h : i < bytes.length) (n : ℕ) :
    (bytes.drop i).take (n + 1) = bytes.getD i 0 :: (bytes.drop (i + 1)).take n := by
  rw [List.drop_eq_getElem_cons h, List.take_succ_cons, List.getD_eq_getElem _ _ h]

section Fields

variable {bytes : List Byte} (hlength : bytes.length = headerLen)

include hlength

theorem take_one {i : ℕ} (hi : i < headerLen) : (bytes.drop i).take 1 = [bytes.getD i 0] := by
  rw [take_drop_succ (hlength ▸ hi), List.take_zero]

theorem take_two : (bytes.drop 4).take 2 = [bytes.getD 4 0, bytes.getD 5 0] := by
  rw [take_drop_succ (by rw [hlength]; decide), take_one hlength (by decide)]

/-- The length field, byte by byte. -/
theorem length_value : (((bytes.getD 24 0).val <<< 24 ||| (bytes.getD 25 0).val <<< 16) |||
    (bytes.getD 26 0).val <<< 8) ||| (bytes.getD 27 0).val = bigEndianValue (bytes.drop 24) := by
  have hlast : bytes.drop 24 = [bytes.getD 24 0, bytes.getD 25 0, bytes.getD 26 0, bytes.getD 27 0] := by
    have htake : bytes.drop 24 = (bytes.drop 24).take 4 :=
      (List.take_of_length_le (by simp [hlength, headerLen])).symm
    rw [htake, take_drop_succ (by rw [hlength]; decide), take_drop_succ (by rw [hlength]; decide),
      take_drop_succ (by rw [hlength]; decide), take_one hlength (by decide)]
  rw [hlast, bigEndianValue_shifts]

end Fields

section Header

variable (purpose direction : Byte) (sessionId : Bytes 16) (length : ℕ) (rest : List Byte)

@[simp] theorem header_length : (header purpose direction sessionId length).length = headerLen := by
  simp [header, magic, sessionId.2, bigEndian_length, headerLen]

theorem take_header : (header purpose direction sessionId length ++ rest).take 4 = magic := rfl

theorem version_header :
    ((header purpose direction sessionId length ++ rest).drop 4).take 2 = [0, 1] := rfl

theorem purpose_header :
    ((header purpose direction sessionId length ++ rest).drop 6).take 1 = [purpose] := rfl

theorem direction_header :
    ((header purpose direction sessionId length ++ rest).drop 7).take 1 = [direction] := rfl

theorem session_header :
    ((header purpose direction sessionId length ++ rest).drop 8).take 16 = sessionId.1 := by
  have hdrop : (header purpose direction sessionId length ++ rest).drop 8 =
      sessionId.1 ++ (bigEndian 4 length ++ rest) := by
    simp [header, magic]
  rw [hdrop, List.take_left' sessionId.2]

theorem length_header : ((header purpose direction sessionId length ++ rest).drop 24).take 4 =
    bigEndian 4 length := by
  have hdrop : (header purpose direction sessionId length ++ rest).drop 24 =
      bigEndian 4 length ++ rest := by
    have hsplit : header purpose direction sessionId length ++ rest =
        (magic ++ ([0, 1, purpose, direction] ++ sessionId.1)) ++ (bigEndian 4 length ++ rest) := by
      simp [header]
    have hlength : (magic ++ ([0, 1, purpose, direction] ++ sessionId.1)).length = 24 := by
      simp [magic, sessionId.2]
    rw [hsplit, List.drop_left' hlength]
  rw [hdrop, List.take_left' (bigEndian_length 4 length)]

theorem fields_header : let bytes := header purpose direction sessionId length
    bytes.take 4 = magic ∧ (bytes.drop 4).take 2 = [0, 1] ∧ (bytes.drop 6).take 1 = [purpose] ∧
      (bytes.drop 7).take 1 = [direction] ∧ (bytes.drop 8).take 16 = sessionId.1 := by
  have hsession := session_header purpose direction sessionId length []
  rw [List.append_nil] at hsession
  exact ⟨rfl, rfl, rfl, rfl, hsession⟩

theorem last_header : (header purpose direction sessionId length).drop 24 = bigEndian 4 length := by
  have hlast := length_header purpose direction sessionId length []
  rw [List.append_nil, List.take_of_length_le (by simp [headerLen])] at hlast
  exact hlast

variable {length} in
theorem value_header (h : length ≤ maxMessageBytes) :
    bigEndianValue ((header purpose direction sessionId length).drop 24) = length := by
  rw [last_header]
  exact bigEndianValue_bigEndian (lt_of_le_of_lt h (by decide))

variable {purpose direction sessionId length rest}

/-- A header is made of its fields. -/
theorem eq_header {bytes : List Byte} (hlength : bytes.length = headerLen)
    (hmagic : bytes.take 4 = magic) (hversion : (bytes.drop 4).take 2 = [0, 1])
    (hpurpose : (bytes.drop 6).take 1 = [purpose]) (hdirection : (bytes.drop 7).take 1 = [direction])
    (hsession : (bytes.drop 8).take 16 = sessionId.1) :
    bytes = header purpose direction sessionId (bigEndianValue (bytes.drop 24)) := by
  have hlast : (bytes.drop 24).length = 4 := by
    rw [List.length_drop, hlength, headerLen]
  have hnumber : bigEndian 4 (bigEndianValue (bytes.drop 24)) = bytes.drop 24 := by
    rw [← hlast]
    exact bigEndian_bigEndianValue _
  have hsplit (i n : ℕ) : bytes.drop i = (bytes.drop i).take n ++ bytes.drop (i + n) := by
    rw [← List.drop_drop, List.take_append_drop]
  have hwhole : bytes = bytes.take 4 ++ bytes.drop 4 := (List.take_append_drop 4 bytes).symm
  rw [header, hnumber, ← hmagic, ← hsession]
  conv_lhs => rw [hwhole, hsplit 4 2, hsplit 6 1, hsplit 7 1, hsplit 8 16, hversion, hpurpose,
    hdirection]
  rfl

/-- What begins with a whole message is not broken. -/
theorem not_broken {body : List Byte} {expected : Option (Bytes 16)}
    (hbody : body.length ≤ maxMessageBytes) (hsession : ∀ id, expected = some id → sessionId = id) :
    ¬ Broken purpose direction expected (message purpose direction sessionId body ++ rest) := by
  have hnumber {n : ℕ} (hn : n ≤ maxMessageBytes) : bigEndianValue (bigEndian 4 n) = n :=
    bigEndianValue_bigEndian (lt_of_le_of_lt hn (by decide))
  intro hbroken
  rw [message, List.append_assoc] at hbroken
  cases hbroken with
  | magic h => exact h (take_header ..)
  | version h => exact h (version_header ..)
  | purpose h => exact h (purpose_header ..)
  | direction h => exact h (direction_header ..)
  | session id hexpected h => exact h (hsession id hexpected ▸ session_header ..)
  | length h =>
      rw [length_header, hnumber hbody] at h
      exact absurd h (not_lt.mpr hbody)
  | truncated otherPurpose otherDirection otherSession otherBody hother hstarts h =>
      have hlengths : bigEndian 4 body.length = bigEndian 4 otherBody.length := by
        obtain ⟨missing, hmissing⟩ := hstarts
        have hsame := congrArg (fun bytes => (bytes.drop 24).take 4) hmissing
        simpa only [message, List.append_assoc, length_header] using hsame
      have hsame : body.length = otherBody.length := by
        rw [← hnumber hbody, hlengths, hnumber hother]
      refine h (hstarts.eq_of_length_le ?_)
      simp only [message, List.length_append, header_length, hsame]
      omega

end Header

end AgePluginPhone.Core.StreamMessage
