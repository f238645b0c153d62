import AgePluginPhone.Android.QrFraming
import AgePluginPhone.Ios.QrFraming

/-!
# Agreement of the QR reassemblers

The desktop and the two phones answer every run of calls alike.
-/

namespace AgePluginPhone.Phone.Qr

open Library Reassembly AgePluginPhone.Core AgePluginPhone.Core.Qr

/-- What a call on any of the reassemblers comes to. -/
inductive Outcome
  | inProgress (received total : ℕ)
  | complete (message : List Byte)
  | failed
  | trapped
  | none
  deriving DecidableEq

def Outcome.ofStatus : QrAssemblyStatus → Outcome
  | .inProgress received total => .inProgress received total
  | .complete message => .complete message

/-- The outcome a receiver's answer stands for. -/
def Outcome.ofAnswer : Answer Byte → Outcome
  | .progress received total => .inProgress received total
  | .complete message => .complete message
  | .refused _ => .failed
  | .none => .none

section Machines

variable (sha256 : List Byte → ProtocolDigest)

/-- A call on the desktop, and whether the assembly is poisoned after it. -/
def desktopReport (m : QrMinicbor) (r : QrReassembler) (call : QrReassembler.Call) :
    (Outcome × Bool) × QrReassembler :=
  match r.respond sha256 m call with
  | (none, next) => ((.none, next.poisoned), next)
  | (some (.ok status), next) => ((.ofStatus status, next.poisoned), next)
  | (some (.error _), next) => ((.failed, next.poisoned), next)

def androidReport (p : Android.Qr.Platform) (r : Reassembler) :
    QrReassembler.Call → (Outcome × Bool) × Reassembler
  | .reset => ((.none, r.reset.poisoned), r.reset)
  | .push encoded nowMs =>
      match Android.Qr.push p sha256 r encoded nowMs.val with
      | (.ok status, next) => ((.ofStatus status, next.poisoned), next)
      | (.error _, next) => ((.failed, next.poisoned), next)

def iosReport (p : Ios.Qr.Platform) (r : Reassembler) :
    QrReassembler.Call → (Outcome × Bool) × Reassembler
  | .reset => ((.none, r.reset.poisoned), r.reset)
  | .push encoded nowMs =>
      match Ios.Qr.push p sha256 r encoded nowMs.val with
      | (.ok status, next) => ((.ofStatus status, next.poisoned), next)
      | (.error .trap, next) => ((.trapped, next.poisoned), next)
      | (.error _, next) => ((.failed, next.poisoned), next)

/-- A call the reassemblers are compared on: its reading is that of a signed clock, and the
integers of its frame fit `Int`. -/
def Comparable : QrReassembler.Call → Prop
  | .push encoded nowMs => nowMs.val < 9223372036854775808 ∧ Ios.Qr.FieldsBelow encoded
  | .reset => True

variable (m : QrMinicbor) (android : Android.Qr.Platform) (ios : Ios.Qr.Platform)

/-- What the receiver reports of a call. -/
def expected (receiver : Receiver Transfer Byte) (call : QrReassembler.Call) :
    (Outcome × Bool) × Receiver Transfer Byte :=
  let outcome := receiver.respond (format sha256) (readPiece m) call.general
  ((.ofAnswer outcome.1, outcome.2.isPoisoned), outcome.2)

theorem desktop_step {r : QrReassembler} {receiver : Receiver Transfer Byte}
    (h : Core.Qr.Related r receiver) (call : QrReassembler.Call) :
    (desktopReport sha256 m r call).1 = (expected sha256 m receiver call).1 ∧
      Core.Qr.Related (desktopReport sha256 m r call).2 (expected sha256 m receiver call).2 := by
  obtain ⟨hsame, hrelated⟩ := QrReassembler.respond_call_agrees sha256 m h call
  have hpoisoned := hrelated.poisoned_eq
  rw [desktopReport, expected]
  generalize r.respond sha256 m call = outcome at hsame hrelated hpoisoned
  generalize receiver.respond (format sha256) (readPiece m) call.general = answer
    at hsame hrelated hpoisoned
  obtain ⟨given, next⟩ := outcome
  obtain ⟨wanted, state⟩ := answer
  cases hsame <;> exact ⟨Prod.ext rfl hpoisoned, hrelated⟩

theorem android_step {r : Reassembler} {receiver : Receiver Transfer Byte}
    (h : Related r receiver) {call : QrReassembler.Call} (hcall : Comparable call) :
    (androidReport sha256 android r call).1 = (expected sha256 m receiver call).1 ∧
      Related (androidReport sha256 android r call).2 (expected sha256 m receiver call).2 := by
  cases call with
  | reset => exact ⟨rfl, .idle⟩
  | push encoded nowMs =>
      have hnow : (0 : ℤ) ≤ nowMs.val := Int.natCast_nonneg _
      obtain ⟨hsame, hrelated⟩ := Reassembler.push_agrees sha256
        Android.Qr.errors_ordinary h hnow (Android.Qr.decode_decodes (p := android) m encoded)
      have hpoisoned := hrelated.poisoned_eq
      rw [Int.toNat_natCast] at hsame hrelated hpoisoned
      rw [androidReport, expected, QrReassembler.Call.general, Receiver.respond, Android.Qr.push]
      generalize r.push Android.Qr.errors sha256 (Android.Qr.decode android) encoded nowMs.val =
        outcome at hsame hrelated hpoisoned
      generalize receiver.push (format sha256) (readPiece m) encoded nowMs.val = answer
        at hsame hrelated hpoisoned
      obtain ⟨given, next⟩ := outcome
      obtain ⟨wanted, state⟩ := answer
      cases hsame <;> exact ⟨Prod.ext rfl hpoisoned, hrelated⟩

theorem ios_step {r : Reassembler} {receiver : Receiver Transfer Byte}
    (h : Related r receiver) {call : QrReassembler.Call} (hcall : Comparable call) :
    (iosReport sha256 ios r call).1 = (expected sha256 m receiver call).1 ∧
      Related (iosReport sha256 ios r call).2 (expected sha256 m receiver call).2 := by
  cases call with
  | reset => exact ⟨rfl, .idle⟩
  | push encoded nowMs =>
      have hnow : (0 : ℤ) ≤ nowMs.val := Int.natCast_nonneg _
      obtain ⟨hsame, hrelated⟩ := Reassembler.push_agrees sha256
        Ios.Qr.errors_ordinary h hnow (Ios.Qr.decode_decodes (p := ios) m hcall.2)
      have hpoisoned := hrelated.poisoned_eq
      rw [Int.toNat_natCast] at hsame hrelated hpoisoned
      rw [iosReport, expected, QrReassembler.Call.general, Receiver.respond, Ios.Qr.push]
      generalize r.push Ios.Qr.errors sha256 (Ios.Qr.decode ios) encoded nowMs.val =
        outcome at hsame hrelated hpoisoned
      generalize receiver.push (format sha256) (readPiece m) encoded nowMs.val = answer
        at hsame hrelated hpoisoned
      obtain ⟨given, next⟩ := outcome
      obtain ⟨wanted, state⟩ := answer
      cases hsame with
      | progress => exact ⟨Prod.ext rfl hpoisoned, hrelated⟩
      | complete => exact ⟨Prod.ext rfl hpoisoned, hrelated⟩
      | refused error hthrown =>
          cases error with
          | trap => exact absurd rfl hthrown
          | framing => exact ⟨Prod.ext rfl hpoisoned, hrelated⟩
          | cbor => exact ⟨Prod.ext rfl hpoisoned, hrelated⟩

/-- Every run of comparable calls is answered alike on the desktop and on both phones. -/
theorem qr_reassemblers_agree (sha256 : List Byte → ProtocolDigest) (m : QrMinicbor)
    (android : Android.Qr.Platform) (ios : Ios.Qr.Platform) (calls : List QrReassembler.Call)
    (h : ∀ call ∈ calls, Comparable call) :
    Transducer.answers (androidReport sha256 android) .new calls =
        Transducer.answers (desktopReport sha256 m) .new calls ∧
      Transducer.answers (iosReport sha256 ios) .new calls =
        Transducer.answers (desktopReport sha256 m) .new calls := by
  have hdesktop := (Transducer.simulation (desktopReport sha256 m) (expected sha256 m)
    Core.Qr.Related Eq Comparable
    (fun r receiver call _ hrelated => desktop_step sha256 m hrelated call) h .idle).1
  have handroid := (Transducer.simulation (androidReport sha256 android) (expected sha256 m)
    Related Eq Comparable
    (fun r receiver call hcall hrelated => android_step sha256 m android hrelated hcall) h .idle).1
  have hios := (Transducer.simulation (iosReport sha256 ios) (expected sha256 m)
    Related Eq Comparable
    (fun r receiver call hcall hrelated => ios_step sha256 m ios hrelated hcall) h .idle).1
  rw [List.forall₂_eq_eq_eq] at hdesktop handroid hios
  rw [hdesktop, handroid, hios]
  exact ⟨rfl, rfl⟩

end Machines

section Sample

/-- Platforms with the readers of this development. -/
def sampleAndroid : Android.Qr.Platform where
  readTree content := (Cbor.Item.read 2 content).map Prod.fst
  readTree_encode item h := by
    have hread := Cbor.Item.read_encode h []
    rw [List.append_nil] at hread
    rw [hread]
    rfl
  decodeUrl := Base64.decodeUrl
  decodeUrl_encodeUrl _ := Base64.decodeUrl_eq_some.mpr rfl

def sampleIos : Ios.Qr.Platform where
  characters s := s.toList.map fun c => [c]
  characters_flatten s := by rw [← List.flatMap_def, List.flatMap_singleton']
  characters_ascii _ _ := rfl
  base64Decoded s :=
    if Ios.Qr.padded (Ios.Qr.removing '=' s) = s then Base64.decode (Ios.Qr.removing '=' s) else none
  base64Decoded_encoded data := by
    have hbody : Ios.Qr.removing '=' (Ios.Qr.base64EncodedString data) = Base64.encode data :=
      Ios.Qr.removing_padded data
    have hpadded : Ios.Qr.padded (Base64.encode data) = Ios.Qr.base64EncodedString data := rfl
    rw [hbody, if_pos hpadded, Base64.decode_encode]

theorem qr_reassemblers_agree_sample :
    let calls : List QrReassembler.Call :=
      [.push (sampleFrame 0).text 0, .push "noise" 7, .push (sampleFrame 1).text 9, .reset]
    Transducer.answers (androidReport (fun _ => Bytes.replicate 32 1) sampleAndroid) .new calls =
        Transducer.answers (desktopReport (fun _ => Bytes.replicate 32 1) QrMinicbor.definite) .new
          calls ∧
      Transducer.answers (iosReport (fun _ => Bytes.replicate 32 1) sampleIos) .new calls =
        Transducer.answers (desktopReport (fun _ => Bytes.replicate 32 1) QrMinicbor.definite) .new
          calls := by
  intro calls
  have hnoise : Ios.Qr.FieldsBelow "noise" := by
    intro data items htext
    have hstart := congrArg (fun s : String => s.toList.take 1) htext
    simp [String.toList_append, textPrefix] at hstart
  refine qr_reassemblers_agree _ QrMinicbor.definite sampleAndroid sampleIos calls ?_
  simp only [calls, List.forall_mem_cons, List.not_mem_nil, false_imp_iff, implies_true, and_true,
    Comparable]
  exact ⟨⟨by decide, Ios.Qr.fieldsBelow_text (by decide)⟩, ⟨by decide, hnoise⟩,
    ⟨by decide, Ios.Qr.fieldsBelow_text (by decide)⟩⟩

end Sample

end AgePluginPhone.Phone.Qr
