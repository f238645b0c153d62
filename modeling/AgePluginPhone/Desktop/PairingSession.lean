import AgePluginPhone.Core.Envelope
import AgePluginPhone.Desktop.PairingStub
import AgePluginPhone.Library.Machine
import AgePluginPhone.Library.Splits

/-!
# One pairing attempt on the desktop

`DesktopPairingSession`: an offer waits for one response and the response for one confirmation of
the fingerprint. Cancellation, timeout, a mismatch or a second action closes the session for good.
-/

namespace AgePluginPhone.Desktop

open Library AgePluginPhone.Core

def maxPairingSessionAgeMs : ℕ := 5 * 60 * 1000

structure PairingDisplay where
  desktopLabel : String
  transcriptFingerprint : String
  deriving DecidableEq

inductive State
  | waiting
  | confirming (response : SignedPairingResponse) (fingerprint : ProtocolDigest)
  | closed

structure DesktopPairingSession where
  offer : SignedPairingOffer
  startedAtMs : U64
  state : State

namespace DesktopPairingSession

variable (C : Crates) (m : TextMinicbor)

/-- `begin`, with the nonce it draws. -/
def begin (desktopId : Id) (desktopLabel : String) (signingKey : P256Signer)
    (desktopSelectionPublicKey : EncodedPublicKey) (nowMs : U64) (nonce : ProtocolNonce) :
    Except PairingError DesktopPairingSession := do
  let publicKey ← signingKey.publicKey.mapError fun _ => .invalidResponse
  let offer ← (SignedPairingOffer.sign C
    ⟨desktopId, desktopLabel, publicKey, desktopSelectionPublicKey, nonce⟩ signingKey).mapError
      fun _ => .invalidResponse
  return ⟨offer, nowMs, .waiting⟩

variable {C m}

def close (s : DesktopPairingSession) : DesktopPairingSession := { s with state := .closed }

def ensureLive (s : DesktopPairingSession) (nowMs : U64) :
    Except PairingError Unit × DesktopPairingSession :=
  match s.state with
  | .closed => (.error .sessionClosed, s)
  | _ =>
      if nowMs < s.startedAtMs ∨ maxPairingSessionAgeMs < nowMs.val - s.startedAtMs.val then
        (.error .timeout, s.close)
      else (.ok (), s)

variable (C) in
def stubFromResponse (s : DesktopPairingSession) (response : SignedPairingResponse)
    (fingerprint : ProtocolDigest) : PublicIdentityStub where
  desktopId := s.offer.payload.desktopId
  identityId := response.payload.identityId
  recipient := response.payload.recipient
  desktopSigningPublicKey := s.offer.payload.desktopSigningPublicKey
  desktopSelectionPublicKey := s.offer.payload.desktopSelectionPublicKey
  phoneSigningPublicKey := response.payload.phoneSigningPublicKey
  offerDigest := SignedPairingOffer.digest C s.offer
  transcriptFingerprint := fingerprint

variable (C m) in
/-- The response, decoded and verified against the session's offer. -/
def verified (s : DesktopPairingSession) (encoded : List Byte) :
    Except ProtocolError SignedPairingResponse := do
  let response ← SignedPairingResponse.decode C m encoded
  SignedPairingResponse.verify C response s.offer
  return response

variable (C m) in
def receiveResponse (s : DesktopPairingSession) (encoded : List Byte) (nowMs : U64) :
    Except PairingError PairingDisplay × DesktopPairingSession :=
  match s.ensureLive nowMs with
  | (.error failure, s) => (.error failure, s)
  | (.ok _, s) =>
      match s.state with
      | .waiting =>
          match s.verified C m encoded with
          | .error _ => (.error .invalidResponse, s.close)
          | .ok response =>
              let fingerprint := pairingFingerprint C s.offer response
              (.ok ⟨s.offer.payload.desktopLabel, hex fingerprint⟩,
                { s with state := .confirming response fingerprint })
      | _ => (.error .sessionClosed, s.close)

variable (C) in
def confirm (s : DesktopPairingSession) (displayedFingerprint : String) (nowMs : U64) :
    Except PairingError PublicIdentityStub × DesktopPairingSession :=
  match s.ensureLive nowMs with
  | (.error failure, s) => (.error failure, s)
  | (.ok _, s) =>
      match s.state with
      | .confirming response fingerprint =>
          if displayedFingerprint ≠ hex fingerprint then (.error .fingerprintMismatch, s.close)
          else (.ok (s.stubFromResponse C response fingerprint), s.close)
      | _ => (.error .sessionClosed, s.close)

variable (C) in
def pendingStub (s : DesktopPairingSession) : Except PairingError PublicIdentityStub :=
  match s.state with
  | .confirming response fingerprint => .ok (s.stubFromResponse C response fingerprint)
  | _ => .error .sessionClosed

def cancel (s : DesktopPairingSession) : DesktopPairingSession := s.close

theorem begin_eq_ok {desktopId : Id} {desktopLabel : String} {signingKey : P256Signer}
    {selection : EncodedPublicKey} {nowMs : U64} {nonce : ProtocolNonce} {s : DesktopPairingSession}
    (h : begin C desktopId desktopLabel signingKey selection nowMs nonce = .ok s) :
    ∃ offer, s = ⟨offer, nowMs, .waiting⟩ := by
  simp only [begin, bind_eq_ok, pure_eq_ok, Except.ok.injEq] at h
  obtain ⟨_, -, offer, -, rfl⟩ := h
  exact ⟨offer, rfl⟩

inductive Call
  | receiveResponse (encoded : List Byte) (nowMs : U64)
  | confirm (displayedFingerprint : String) (nowMs : U64)
  | pendingStub
  | cancel

/-- What a call that does not fail returns. -/
inductive Output
  | display (display : PairingDisplay)
  | confirmed (stub : PublicIdentityStub)
  | pending (stub : PublicIdentityStub)
  | cancelled

/-- A call and its result. -/
structure Entry where
  call : Call
  result : Except PairingError Output

variable (C m) in
def run (s : DesktopPairingSession) : Call → Except PairingError Output × DesktopPairingSession
  | .receiveResponse encoded nowMs =>
      let outcome := s.receiveResponse C m encoded nowMs
      (outcome.1.map .display, outcome.2)
  | .confirm displayed nowMs =>
      let outcome := s.confirm C displayed nowMs
      (outcome.1.map .confirmed, outcome.2)
  | .pendingStub => ((s.pendingStub C).map .pending, s)
  | .cancel => (.ok .cancelled, s.cancel)

variable (C m) in
def step (s : DesktopPairingSession) (call : Call) : Option DesktopPairingSession :=
  some (s.run C m call).2

variable (C m) in
def entry (s : DesktopPairingSession) (call : Call) : Option Entry :=
  some ⟨call, (s.run C m call).1⟩

variable (C m) in
/-- The calls made on a session that has just begun, with their results. -/
def log (offer : SignedPairingOffer) (startedAtMs : U64) (calls : List Call) : List Entry :=
  Machine.emitted (step C m) (entry C m) ⟨offer, startedAtMs, .waiting⟩ calls

namespace Entry

/-- A response was accepted for confirmation. -/
def received (e : Entry) : Bool :=
  match e.result with
  | .ok (.display _) => true
  | _ => false

def confirmed (e : Entry) : Bool :=
  match e.result with
  | .ok (.confirmed _) => true
  | _ => false

theorem confirmed_eq_true {e : Entry} :
    e.confirmed = true ↔ ∃ stub, e.result = .ok (.confirmed stub) := by
  obtain ⟨call, result⟩ := e
  cases result with
  | error failure => simp [confirmed]
  | ok output => cases output <;> simp [confirmed]

/-- The calls after which a session is closed. -/
def closes (e : Entry) : Bool :=
  match e.call with
  | .receiveResponse _ _ => !e.received
  | .confirm _ _ | .cancel => true
  | .pendingStub => false

end Entry

/-- The clock reading lies within the life of a session. -/
def InTime (startedAtMs nowMs : U64) : Prop :=
  startedAtMs ≤ nowMs ∧ nowMs.val ≤ startedAtMs.val + maxPairingSessionAgeMs

variable (C m) in
/-- The log holds one accepted response, verified against the offer, and after it nothing but
glances at the stub it stands for. -/
structure Awaits (offer : SignedPairingOffer) (startedAtMs : U64) (log : List Entry)
    (response : SignedPairingResponse) (stub : PublicIdentityStub) : Prop where
  received : ∃ earlier middle encoded receivedMs display,
    log = earlier ++ ⟨.receiveResponse encoded receivedMs, .ok (.display display)⟩ :: middle ∧
      SignedPairingResponse.decode C m encoded = .ok response ∧
      SignedPairingResponse.verify C response offer = .ok () ∧ InTime startedAtMs receivedMs ∧
      (∀ e ∈ earlier, e.call = .pendingStub ∧ e.result = .error .sessionClosed) ∧
      ∀ e ∈ middle, e.call = .pendingStub ∧ e.result = .ok (.pending stub)
  stub : stub = (⟨offer, startedAtMs, .waiting⟩ : DesktopPairingSession).stubFromResponse C response
    (pairingFingerprint C offer response)

theorem Awaits.received_once {offer : SignedPairingOffer} {startedAtMs : U64} {log : List Entry}
    {response : SignedPairingResponse} {stub : PublicIdentityStub}
    (h : Awaits C m offer startedAtMs log response stub) : (log.filter Entry.received).length = 1 := by
  obtain ⟨earlier, middle, encoded, receivedMs, display, hlog, -, -, -, hearlier, hmiddle⟩ :=
    h.received
  have hnone : earlier.filter Entry.received = [] := by
    apply List.filter_eq_nil_iff.mpr
    intro e he
    simp [Entry.received, (hearlier e he).2]
  have hglances : middle.filter Entry.received = [] := by
    apply List.filter_eq_nil_iff.mpr
    intro e he
    simp [Entry.received, (hmiddle e he).2]
  rw [hlog, List.filter_append, List.filter_cons, hnone, hglances]
  rfl

variable (C m) in
/-- What the state of a session says of the calls made on it. -/
def Explained (offer : SignedPairingOffer) (startedAtMs : U64) (log : List Entry)
    (s : DesktopPairingSession) : Prop :=
  s.offer = offer ∧ s.startedAtMs = startedAtMs ∧
    match s.state with
    | .waiting => ∀ e ∈ log, e.call = .pendingStub ∧ e.result = .error .sessionClosed
    | .confirming response fingerprint => fingerprint = pairingFingerprint C offer response ∧
        Awaits C m offer startedAtMs log response (s.stubFromResponse C response fingerprint)
    | .closed => ∃ e ∈ log, e.closes

section Steps

variable {offer : SignedPairingOffer} {startedAtMs nowMs : U64} {past : List Entry}
  {s : DesktopPairingSession} {displayed : String} {stub : PublicIdentityStub}

theorem ensureLive_ok (h : (s.ensureLive nowMs).1 = .ok ()) :
    s.ensureLive nowMs = (.ok (), s) ∧ InTime s.startedAtMs nowMs := by
  obtain ⟨offer, startedAtMs, state⟩ := s
  cases state <;> simp only [ensureLive] at h ⊢
  case closed => cases h
  all_goals
    split_ifs at h ⊢ with hlate
    refine ⟨rfl, ?_⟩
    rw [not_or, not_lt, not_lt] at hlate
    have hstart : startedAtMs.val ≤ nowMs.val := hlate.1
    have hage := hlate.2
    exact ⟨hlate.1, by omega⟩

theorem ensureLive_error {failure : PairingError} (h : (s.ensureLive nowMs).1 = .error failure) :
    (s.ensureLive nowMs).2 = s.close := by
  obtain ⟨offer, startedAtMs, state⟩ := s
  cases state <;> simp only [ensureLive] at h ⊢
  case closed => rfl
  all_goals
    split_ifs at h ⊢
    rfl

/-- A response is accepted only while the session waits, in time and verified; a call that does not
accept it closes the session. -/
theorem receiveResponse_cases (s : DesktopPairingSession) (encoded : List Byte) (nowMs : U64) :
    (∃ failure, s.receiveResponse C m encoded nowMs = (.error failure, s.close)) ∨
      s.state = .waiting ∧ InTime s.startedAtMs nowMs ∧ ∃ response display,
        SignedPairingResponse.decode C m encoded = .ok response ∧
        SignedPairingResponse.verify C response s.offer = .ok () ∧
        s.receiveResponse C m encoded nowMs = (.ok display,
          { s with state := .confirming response (pairingFingerprint C s.offer response) }) := by
  cases hlive : (s.ensureLive nowMs).1 with
  | error failure =>
      have hclosed := ensureLive_error hlive
      refine Or.inl ⟨failure, ?_⟩
      rw [receiveResponse, ← Prod.mk.eta (p := s.ensureLive nowMs), hlive, hclosed]
  | ok u =>
      obtain ⟨hsame, htime⟩ := ensureLive_ok hlive
      cases hstate : s.state with
      | waiting =>
          cases hverified : s.verified C m encoded with
          | error failure =>
              exact Or.inl ⟨.invalidResponse, by simp only [receiveResponse, hsame, hstate, hverified]⟩
          | ok response =>
              obtain ⟨found, hdecode, hrest⟩ := bind_eq_ok.mp hverified
              obtain ⟨_, hverify, hfound⟩ := bind_eq_ok.mp hrest
              obtain rfl := Except.ok.inj hfound
              refine Or.inr ⟨rfl, htime, found,
                ⟨s.offer.payload.desktopLabel, hex (pairingFingerprint C s.offer found)⟩, hdecode,
                hverify, ?_⟩
              simp only [receiveResponse, hsame, hstate, hverified]
      | confirming response fingerprint =>
          exact Or.inl ⟨.sessionClosed, by simp only [receiveResponse, hsame, hstate]⟩
      | closed => exact Or.inl ⟨.sessionClosed, by simp only [receiveResponse, hsame, hstate]⟩

/-- A confirmation closes the session and succeeds only on the fingerprint it holds, in time. -/
theorem confirm_cases (s : DesktopPairingSession) (displayed : String) (nowMs : U64) :
    (s.confirm C displayed nowMs).2 = s.close ∧
      ∀ stub, (s.confirm C displayed nowMs).1 = .ok stub → InTime s.startedAtMs nowMs ∧
        ∃ response fingerprint, s.state = .confirming response fingerprint ∧
          displayed = hex fingerprint ∧ stub = s.stubFromResponse C response fingerprint := by
  cases hlive : (s.ensureLive nowMs).1 with
  | error failure =>
      have hclosed := ensureLive_error hlive
      rw [confirm, ← Prod.mk.eta (p := s.ensureLive nowMs), hlive, hclosed]
      exact ⟨rfl, fun stub h => by cases h⟩
  | ok u =>
      obtain ⟨hsame, htime⟩ := ensureLive_ok hlive
      cases hstate : s.state with
      | confirming response fingerprint =>
          simp only [confirm, hsame, hstate]
          split_ifs with hmatch
          · exact ⟨rfl, fun stub h => by cases h⟩
          · refine ⟨rfl, fun stub h => ⟨htime, response, fingerprint, rfl, not_not.mp hmatch, ?_⟩⟩
            exact (Except.ok.inj h).symm
      | waiting =>
          simp only [confirm, hsame, hstate]
          exact ⟨trivial, fun stub h => by cases h⟩
      | closed =>
          simp only [confirm, hsame, hstate]
          exact ⟨trivial, fun stub h => by cases h⟩

theorem Explained.not_closes (h : Explained C m offer startedAtMs past s) (hstate : s.state ≠ .closed) :
    ∀ e ∈ past, e.closes = false := by
  have hpending : ∀ e : Entry, e.call = .pendingStub → e.closes = false := by
    intro e he
    simp [Entry.closes, he]
  obtain ⟨-, -, hpast⟩ := h
  cases hfound : s.state with
  | closed => exact absurd hfound hstate
  | waiting =>
      rw [hfound] at hpast
      intro e he
      exact hpending e (hpast e he).1
  | confirming response fingerprint =>
      rw [hfound] at hpast
      obtain ⟨-, ⟨earlier, middle, encoded, receivedMs, display, hlog, -, -, -, hearlier, hmiddle⟩, -⟩ :=
        hpast
      intro e he
      rw [hlog] at he
      rcases List.mem_append.mp he with he | he
      · exact hpending e (hearlier e he).1
      · rcases List.mem_cons.mp he with rfl | he
        · rfl
        · exact hpending e (hmiddle e he).1

/-- A closed session fails every call but a cancellation. -/
theorem closed_fails (h : s.state = .closed) {call : Call} (hcall : call ≠ .cancel) :
    ∃ failure, (s.run C m call).1 = .error failure := by
  cases call with
  | cancel => exact absurd rfl hcall
  | pendingStub => exact ⟨.sessionClosed, by simp [run, pendingStub, h, Except.map]⟩
  | confirm displayed nowMs =>
      cases hresult : (s.confirm C displayed nowMs).1 with
      | error failure => exact ⟨failure, by simp [run, hresult, Except.map]⟩
      | ok stub =>
          obtain ⟨-, response, fingerprint, hstate, -⟩ := (confirm_cases s displayed nowMs).2 stub hresult
          rw [h] at hstate
          cases hstate
  | receiveResponse encoded nowMs =>
      rcases receiveResponse_cases (C := C) (m := m) s encoded nowMs with hfailed | hreceived
      · obtain ⟨failure, hfailed⟩ := hfailed
        exact ⟨failure, by simp [run, hfailed, Except.map]⟩
      · rw [h] at hreceived
        cases hreceived.1

theorem explained_step (h : Explained C m offer startedAtMs past s) (call : Call) :
    Explained C m offer startedAtMs (past ++ [⟨call, (s.run C m call).1⟩]) (s.run C m call).2 := by
  obtain ⟨hoffer, hstart, hpast⟩ := h
  have hclosing {e : Entry} (he : e.closes = true) :
      Explained C m offer startedAtMs (past ++ [e]) s.close :=
    ⟨hoffer, hstart, e, List.mem_append_right _ List.mem_cons_self, he⟩
  cases call with
  | cancel => exact hclosing rfl
  | confirm displayed nowMs =>
      have hclose : (s.run C m (.confirm displayed nowMs)).2 = s.close :=
        (confirm_cases s displayed nowMs).1
      rw [hclose]
      exact hclosing rfl
  | receiveResponse encoded nowMs =>
      rcases receiveResponse_cases (C := C) (m := m) s encoded nowMs with hfailed | hreceived
      · obtain ⟨failure, hfailed⟩ := hfailed
        simp only [run, hfailed]
        exact hclosing rfl
      · obtain ⟨hwaiting, htime, response, display, hdecode, hverify, hreceive⟩ := hreceived
        rw [hwaiting] at hpast
        simp only [run, hreceive]
        refine ⟨hoffer, hstart, by rw [hoffer], ?_, ?_⟩
        · refine ⟨past, [], encoded, nowMs, display, rfl, hdecode, ?_, hstart ▸ htime, hpast,
            by simp⟩
          rw [← hoffer]
          exact hverify
        · rw [← hoffer]
          rfl
  | pendingStub =>
      refine ⟨hoffer, hstart, ?_⟩
      change match s.state with
        | .waiting => _
        | .confirming response fingerprint => _
        | .closed => _
      cases hstate : s.state with
      | waiting =>
          rw [hstate] at hpast
          intro e he
          rcases List.mem_append.mp he with he | he
          · exact hpast e he
          · rw [List.mem_singleton.mp he]
            exact ⟨rfl, by simp [run, pendingStub, hstate, Except.map]⟩
      | closed =>
          rw [hstate] at hpast
          obtain ⟨e, he, hcloses⟩ := hpast
          exact ⟨e, List.mem_append_left _ he, hcloses⟩
      | confirming response fingerprint =>
          rw [hstate] at hpast
          obtain ⟨hfingerprint, ⟨earlier, middle, encoded, receivedMs, display, hlog, hdecode, hverify,
            htime, hearlier, hmiddle⟩, hstub⟩ := hpast
          refine ⟨hfingerprint, ⟨earlier, middle ++ [⟨.pendingStub, (s.run C m .pendingStub).1⟩], encoded,
            receivedMs, display, ?_, hdecode, hverify, htime, hearlier, ?_⟩, hstub⟩
          · rw [hlog, List.append_assoc, List.cons_append]
          · intro e he
            rcases List.mem_append.mp he with he | he
            · exact hmiddle e he
            · rw [List.mem_singleton.mp he]
              refine ⟨rfl, ?_⟩
              simp [run, pendingStub, hstate, Except.map, stubFromResponse]

variable (C m) in
/-- What the calls made so far allow of the next one. -/
structure Justified (offer : SignedPairingOffer) (startedAtMs : U64) (past : List Entry)
    (e : Entry) : Prop where
  confirmed : ∀ stub, e.result = .ok (.confirmed stub) →
    ∃ displayed nowMs response, e.call = .confirm displayed nowMs ∧
      Awaits C m offer startedAtMs past response stub ∧ InTime startedAtMs nowMs ∧
      displayed = hex (pairingFingerprint C offer response)
  fails : (∃ closing ∈ past, closing.closes) → e.call ≠ .cancel → ∃ failure, e.result = .error failure

theorem justified_step (h : Explained C m offer startedAtMs past s) (call : Call) :
    Justified C m offer startedAtMs past ⟨call, (s.run C m call).1⟩ := by
  constructor
  · intro stub hresult
    cases call with
    | confirm displayed nowMs =>
        cases hconfirm : (s.confirm C displayed nowMs).1 with
        | error failure =>
            simp only [run, hconfirm, Except.map] at hresult
            cases hresult
        | ok found =>
            simp only [run, hconfirm, Except.map] at hresult
            obtain rfl : found = stub := by simpa using hresult
            obtain ⟨htime, response, fingerprint, hstate, hdisplayed, hstub⟩ :=
              (confirm_cases s displayed nowMs).2 found hconfirm
            obtain ⟨-, hstart, hpast⟩ := h
            rw [hstate] at hpast
            obtain ⟨hfingerprint, hawaits⟩ := hpast
            rw [← hstub] at hawaits
            refine ⟨displayed, nowMs, response, rfl, hawaits, ?_, ?_⟩
            · rw [← hstart]
              exact htime
            · rw [hdisplayed, hfingerprint]
    | cancel => cases hresult
    | pendingStub =>
        simp only [run] at hresult
        cases hpending : s.pendingStub C <;> rw [hpending] at hresult <;> cases hresult
    | receiveResponse encoded nowMs =>
        simp only [run] at hresult
        cases hreceive : (s.receiveResponse C m encoded nowMs).1 <;> rw [hreceive] at hresult <;>
          cases hresult
  · intro hclosed hcall
    obtain ⟨closing, hclosing, hcloses⟩ := hclosed
    have hstate : s.state = .closed := by
      by_contra hopen
      have hnot := h.not_closes hopen closing hclosing
      rw [hnot] at hcloses
      cases hcloses
    exact closed_fails hstate hcall

theorem log_justified (offer : SignedPairingOffer) (startedAtMs : U64) (calls : List Call)
    {before after : List Entry} {e : Entry}
    (h : log C m offer startedAtMs calls = before ++ e :: after) :
    Justified C m offer startedAtMs before e := by
  have hstart : Explained C m offer startedAtMs [] ⟨offer, startedAtMs, .waiting⟩ := by
    simp [Explained]
  have hinv : ∀ past s call t, Explained C m offer startedAtMs past s → step C m s call = some t →
      Explained C m offer startedAtMs (past ++ (entry C m s call).toList) t := by
    intro past s call t hs hstep
    obtain rfl := Option.some.inj hstep
    exact explained_step hs call
  have hjust : ∀ past s call t a, Explained C m offer startedAtMs past s →
      step C m s call = some t → entry C m s call = some a →
      Justified C m offer startedAtMs past a := by
    intro past s call t a hs _ hemit
    obtain rfl := Option.some.inj hemit
    exact justified_step hs call
  exact Machine.emitted_justified hinv hjust hstart (by simp) before e after h

end Steps

/-- Over any calls on a session that has just begun, at most one confirmation succeeds. It answers
the one response accepted for the offer, in time, on the full fingerprint of the two and with the
stub every glance in between showed. Once the session is closed every later call fails. -/
theorem one_shot (offer : SignedPairingOffer) (startedAtMs : U64) (calls : List Call) :
    ((log C m offer startedAtMs calls).filter Entry.confirmed).length ≤ 1 ∧
      ∀ before e after, log C m offer startedAtMs calls = before ++ e :: after →
        (∀ stub, e.result = .ok (.confirmed stub) → ∃ displayed nowMs response,
          e.call = .confirm displayed nowMs ∧ Awaits C m offer startedAtMs before response stub ∧
          (before.filter Entry.received).length = 1 ∧ InTime startedAtMs nowMs ∧
          displayed = hex (pairingFingerprint C offer response) ∧
          displayed.toList.length = 64 ∧ ∀ c ∈ displayed.toList, c ∈ hexDigits) ∧
        (e.closes → ∀ later ∈ after, later.call ≠ .cancel →
          ∃ failure, later.result = .error failure) := by
  have hlater : ∀ before e after, log C m offer startedAtMs calls = before ++ e :: after →
      e.closes → ∀ later ∈ after, later.call ≠ .cancel →
        ∃ failure, later.result = .error failure := by
    intro before e after hlog hcloses later hmem hcall
    obtain ⟨between, rest, rfl⟩ := List.append_of_mem hmem
    have hlog : log C m offer startedAtMs calls = (before ++ e :: between) ++ later :: rest := by
      simpa using hlog
    exact (log_justified offer startedAtMs calls hlog).fails ⟨e, by simp, hcloses⟩ hcall
  constructor
  · apply Splits.length_filter_le_one
    intro before e after hlog hconfirmed later hmem
    by_contra hagain
    obtain ⟨stub, hstub⟩ := Entry.confirmed_eq_true.mp hconfirmed
    obtain ⟨found, hfound⟩ := Entry.confirmed_eq_true.mp (Bool.eq_true_of_not_eq_false hagain)
    obtain ⟨between, rest, rfl⟩ := List.append_of_mem hmem
    have hsplit : log C m offer startedAtMs calls = (before ++ e :: between) ++ later :: rest := by
      simpa using hlog
    obtain ⟨_, _, _, hcall, -⟩ := (log_justified offer startedAtMs calls hlog).confirmed stub hstub
    obtain ⟨_, _, _, hlaterCall, -⟩ :=
      (log_justified offer startedAtMs calls hsplit).confirmed found hfound
    have hcloses : e.closes = true := by simp [Entry.closes, hcall]
    obtain ⟨failure, hfailure⟩ := hlater before e _ hlog hcloses later hmem (by simp [hlaterCall])
    rw [hfound] at hfailure
    cases hfailure
  · intro before e after hlog
    refine ⟨?_, hlater before e after hlog⟩
    intro stub hstub
    obtain ⟨displayed, nowMs, response, hcall, hawaits, htime, hdisplayed⟩ :=
      (log_justified offer startedAtMs calls hlog).confirmed stub hstub
    have hlength : displayed.toList.length = 64 := by
      rw [hdisplayed, hex_length, (pairingFingerprint C offer response).2]
    have hdigits : ∀ c ∈ displayed.toList, c ∈ hexDigits := by
      rw [hdisplayed]
      exact hex_mem _
    exact ⟨displayed, nowMs, response, hcall, hawaits, hawaits.received_once, htime, hdisplayed,
      hlength, hdigits⟩

end DesktopPairingSession

end AgePluginPhone.Desktop
