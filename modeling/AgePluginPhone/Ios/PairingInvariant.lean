import AgePluginPhone.Ios.PairingRoles
import AgePluginPhone.Ios.UnwrapRequest
import AgePluginPhone.Library.ExpiringSet

/-!
# States the iOS store writes

Every state the store reads is well formed, a consumption keeps it well formed, and what is written
for it is read back as the same state.
-/

namespace AgePluginPhone.Ios

open Library Cbor StrictCbor StorageM

variable {K : CryptoKit}

namespace PairingState

variable {s t : PairingState}

def liveEntries (s : PairingState) (nowUnix : U64) : List ReplayEntry :=
  ExpiringSet.live ReplayEntry.expiresAt s.entries nowUnix

end PairingState

/-- The replay entry of a request. -/
def VerifiedUnwrapRequest.entry (request : VerifiedUnwrapRequest K) : ReplayEntry :=
  ⟨request.requestId, request.nonce, request.expiresAtUnix⟩

theorem ProtocolBounds.validateTime_eq_ok {expires now : U64} :
    validateTime expires now = .ok () ↔ expires.val ≤ maximumTime ∧ now.val ≤ maximumTime ∧
      now ≤ expires ∧ expires.val - now.val ≤ 300 := by
  simp [validateTime, validateTimestamp, bind_eq_ok]

theorem requireEntries_eq_ok {lastSeen : U64} {entries : List ReplayEntry} :
    requireEntries lastSeen entries = .ok () ↔ (∀ e ∈ entries, lastSeen ≤ e.expiresAt) ∧
      entries = entries.insertionSort (· ≤ ·) ∧ (entries.map ReplayEntry.requestId).Nodup ∧
      (entries.map ReplayEntry.nonce).Nodup := ensure_eq_ok

private theorem mapError_eq_ok {Failure' : Type} {α : Type} {x : Except Failure' α} {a : α}
    {f : Failure' → Failure} : x.mapError f = .ok a ↔ x = .ok a := by
  cases x <;> simp [Except.mapError]

section Consumption

variable {s t : PairingState} {request : VerifiedUnwrapRequest K} {nowUnix : U64}

theorem consume_eq_ok : s.consume K request nowUnix = .ok t ↔ s.lastSeen ≤ nowUnix ∧
    ProtocolBounds.validateTime request.expiresAtUnix nowUnix = .ok () ∧
    (∀ e ∈ s.liveEntries nowUnix, e.requestId ≠ request.requestId ∧ e.nonce ≠ request.nonce) ∧
    (s.liveEntries nowUnix).length < s.capacity ∧
    t = { s with
      lastSeen := nowUnix
      entries := (s.liveEntries nowUnix ++ [request.entry]).insertionSort (· ≤ ·) } := by
  simp only [PairingState.consume, bind_eq_ok, ensure_eq_ok, exists_const, mapError_eq_ok,
    pure_eq_ok, Except.ok.injEq]
  constructor
  · intro hparts
    obtain ⟨hclock, _, htime, hfresh, hroom, rfl⟩ := hparts
    exact ⟨hclock, htime, hfresh, hroom, rfl⟩
  · intro hparts
    obtain ⟨hclock, htime, hfresh, hroom, rfl⟩ := hparts
    exact ⟨hclock, (), htime, hfresh, hroom, rfl⟩

private theorem nodup_append_singleton {α : Type} {entries : List ReplayEntry} {entry : ReplayEntry}
    {f : ReplayEntry → α} (h : (entries.map f).Nodup) (hfresh : ∀ e ∈ entries, f e ≠ f entry) :
    ((entries ++ [entry]).map f).Nodup := by
  rw [List.map_append, List.map_singleton]
  refine List.nodup_append.mpr ⟨h, List.nodup_singleton _, ?_⟩
  simp only [List.mem_map, List.mem_singleton]
  intro a ha b hb
  obtain ⟨e, he, rfl⟩ := ha
  subst hb
  exact hfresh e he

/-- A consumption leaves a state that its own reader accepts. -/
theorem PairingState.WellFormed.consume (h : s.WellFormed)
    (hconsume : s.consume K request nowUnix = .ok t) : t.WellFormed := by
  obtain ⟨hclock, htime, hfresh, hroom, rfl⟩ := consume_eq_ok.mp hconsume
  obtain ⟨-, -, hid, hnonce⟩ := requireEntries_eq_ok.mp h.entries
  have hsub : (s.liveEntries nowUnix).Sublist s.entries := List.filter_sublist
  have hperm := List.perm_insertionSort (· ≤ ·) (s.liveEntries nowUnix ++ [request.entry])
  refine ⟨h.label, h.recipient, h.seen.trans hclock, h.capacity, ?_, ?_⟩
  · rw [hperm.length_eq, List.length_append, List.length_singleton]
    exact hroom
  · refine requireEntries_eq_ok.mpr ⟨?_, ?_, ?_, ?_⟩
    · intro e he
      rcases List.mem_append.mp (hperm.mem_iff.mp he) with he | he
      · exact (ExpiringSet.mem_live.mp he).2
      · rw [List.mem_singleton.mp he]
        exact (ProtocolBounds.validateTime_eq_ok.mp htime).2.2.1
    · exact ((List.pairwise_insertionSort (· ≤ ·) _).insertionSort_eq).symm
    · exact (hperm.map _).nodup_iff.mpr (nodup_append_singleton (hid.sublist (hsub.map _))
        fun e he => (hfresh e he).1)
    · exact (hperm.map _).nodup_iff.mpr (nodup_append_singleton (hnonce.sublist (hsub.map _))
        fun e he => (hfresh e he).2)

theorem consume_record (h : s.consume K request nowUnix = .ok t) :
    t.record = s.record ∧ t.capacity = s.capacity := by
  obtain ⟨-, -, -, -, rfl⟩ := consume_eq_ok.mp h
  exact ⟨rfl, rfl⟩

end Consumption

section Requests

variable {encoded : List Byte} {desktopId identityId : Bytes 16} {key : K.PublicKey} {now later : U64}
  {request : VerifiedUnwrapRequest K}

def presentedExpiry (encoded : List Byte) : Except Failure U64 := do
  let (values, _, _) ← requestValues encoded
  match values with
  | [_, _, _, _, _, _, _, _, _, expires, _] => cbor (exactUnsigned expires)
  | _ => .error (.cbor .malformed)

variable (K) in
/-- The request, when every check of `verifyRequest` passes with the clock at the request's own
expiry. -/
def signedRequest (encoded : List Byte) (desktopId identityId : Bytes 16) (key : K.PublicKey) :
    Except Failure (VerifiedUnwrapRequest K) := do
  let expires ← presentedExpiry encoded
  verifyRequest K encoded desktopId identityId key expires

/-- What a verified request says of its bytes: the clock it was verified at enters in one check. -/
theorem verifyRequest_eq_ok (h : verifyRequest K encoded desktopId identityId key now = .ok request) :
    ProtocolBounds.validateTime request.expiresAtUnix now = .ok () ∧
      request.desktopId = desktopId ∧ request.identityId = identityId ∧
      presentedExpiry encoded = .ok request.expiresAtUnix ∧
      requestScope encoded = .ok ⟨desktopId, identityId⟩ ∧
      ∀ later, ProtocolBounds.validateTime request.expiresAtUnix later = .ok () →
        verifyRequest K encoded desktopId identityId key later = .ok request := by
  simp only [verifyRequest, bind_eq_ok] at h
  obtain ⟨⟨values, payload, signature⟩, hvalues, h⟩ := h
  split at h
  · rename_i hlist
    change values = _ at hlist
    subst hlist
    simp only [bind_eq_ok, ensure_eq_ok, exists_const, pure_eq_ok, Except.ok.injEq, cbor_eq_ok,
      mapError_eq_ok] at h
    obtain ⟨requestId, hid, identity, hidentity, desktop, hdesktop, ⟨rfl, rfl⟩, stanza, hstanza,
      ephemeral, hparse, expires, hexpires, _, htime, hint, hhint, _, hverify, session, hsession,
      nonce, hnonce, rfl⟩ := h
    have hbound : ProtocolBounds.validateTimestamp expires = .ok () :=
      ensure_eq_ok.mpr (ProtocolBounds.validateTime_eq_ok.mp htime).1
    refine ⟨htime, rfl, rfl, ?_, ?_, fun later hlater => ?_⟩
    · simp [presentedExpiry, hvalues, hexpires]
    · simp [requestScope, hvalues, hexpires, hbound, hdesktop, hidentity]
    · simp only [verifyRequest, hvalues, ok_bind, bind_eq_ok, ensure_eq_ok, exists_const, pure_eq_ok,
        Except.ok.injEq, cbor_eq_ok, mapError_eq_ok]
      exact ⟨requestId, hid, identity, hidentity, desktop, hdesktop, ⟨rfl, rfl⟩, stanza, hstanza,
        ephemeral, hparse, expires, hexpires, (), hlater, hint, hhint, (), hverify, session, hsession,
        nonce, hnonce, rfl⟩
  · cases h

theorem signedRequest_eq_ok :
    signedRequest K encoded desktopId identityId key = .ok request ↔
      ∃ now, verifyRequest K encoded desktopId identityId key now = .ok request := by
  constructor
  · intro h
    obtain ⟨expires, -, h⟩ := bind_eq_ok.mp h
    exact ⟨expires, h⟩
  · intro h
    obtain ⟨now, h⟩ := h
    obtain ⟨htime, -, -, hexpires, -, hother⟩ := verifyRequest_eq_ok h
    refine bind_eq_ok.mpr ⟨_, hexpires, hother _ ?_⟩
    have hbound := (ProtocolBounds.validateTime_eq_ok.mp htime).1
    exact ProtocolBounds.validateTime_eq_ok.mpr ⟨hbound, hbound, le_rfl, by omega⟩

end Requests

section Roles

variable {offer : VerifiedPairingOffer K}

/-- The guards on the role keys of a pairing, by its keys. -/
theorem requireRoles_pairingRecord (response : VerifiedPairingResponse K)
    (hoffered : offer.desktopSigningPublicKey ≠ offer.desktopSelectionPublicKey) :
    requireRoles K (pairingRecord K offer response) = .ok () ↔
      offer.desktopSigningPublicKey ≠ response.phoneSigningPublicKey ∧
        offer.desktopSelectionPublicKey ≠ response.phoneSigningPublicKey := by
  have hkey (key : K.PublicKey) : publicKey K (compressed K key) = .ok key :=
    publicKey_compressed.mpr rfl
  have hinjective {a b : K.PublicKey} : compressed K a ≠ compressed K b ↔ a ≠ b :=
    (compressed_injective K).ne_iff
  simp [requireRoles, pairingRecord, hkey, hinjective, hoffered, bind_eq_ok]

end Roles

section Reading

variable {s : PairingState} {content : List Byte}

private theorem intOfUnsigned_eq_ok {n : U64} {k : ℕ} (h : intOfUnsigned n = .ok k) :
    n.val = k := by
  unfold intOfUnsigned at h
  split_ifs at h
  exact Except.ok.inj h

private theorem length_of_mapM {α β : Type} {f : α → Except Failure β} {items : List α}
    {results : List β} (h : items.mapM f = .ok results) : results.length = items.length := by
  induction items generalizing results with
  | nil =>
      obtain rfl := Except.ok.inj h
      rfl
  | cons a items ih =>
      simp only [List.mapM_cons, bind_eq_ok, pure_eq_ok, Except.ok.injEq] at h
      obtain ⟨b, -, rest, hrest, rfl⟩ := h
      rw [List.length_cons, List.length_cons, ih hrest]

theorem decode_wellFormed (h : decode K content = .ok s) :
    s.WellFormed ∧ requireRoles K s.record = .ok () := by
  simp only [decode, bind_eq_ok] at h
  obtain ⟨_, -, values, -, h⟩ := h
  split at h
  · simp only [bind_eq_ok, ensure_eq_ok, exists_const, pure_eq_ok, Except.ok.injEq, cbor_eq_ok] at h
    obtain ⟨_, -, -, _, -, _, -, _, hlabel, _, hrecipient, _, -, _, -, _, -, _, -, _, -, _, hroles, _,
      -, _, -, _, -, _, -, hguard, values, -, hcount, entries, hvalues, _, hentries, rfl⟩ := h
    refine ⟨⟨boundedText_eq_ok hlabel, boundedText_eq_ok hrecipient, hguard.1, hguard.2, ?_, hentries⟩,
      hroles⟩
    exact (length_of_mapM hvalues).le.trans hcount
  · cases h

end Reading

section Sizes

variable {s : PairingState}

/-- Every well-formed state fits the size limit of a file. -/
theorem PairingState.WellFormed.encode_length_le (h : s.WellFormed) :
    (encode s).length ≤ maximumStateBytes := by
  have hbytes {n : ℕ} (b : Bytes n) (hn : n ≤ 33) : (Item.encode (.bytes b)).length ≤ 169 :=
    (Item.encode_bytes_length_le b.2.le).trans (by omega)
  have hunsigned (n : ℕ) : (Item.encode (.unsigned n)).length ≤ 169 :=
    (Item.encode_unsigned_length_le n).trans (by decide)
  have hentries : (Item.encode (.array (s.entries.map entryItem))).length ≤ 9 + 16384 * 61 := by
    refine (Item.encode_array_length_le (n := 61) ?_).trans ?_
    · simp only [List.forall_mem_map]
      intro e _
      exact Item.encode_replay_entry_length_le e.requestId e.nonce e.expiresAt
    · have hcount := h.length.trans h.capacity.2
      rw [List.length_map]
      exact Nat.add_le_add_left (Nat.mul_le_mul_right _ hcount) _
  have hfields : ∀ item ∈ [Item.unsigned 2, .bytes s.record.desktopId, .bytes s.record.identityId,
      .text s.record.desktopLabel, .text s.record.recipient,
      .bytes s.record.desktopSigningPublicKey, .bytes s.record.desktopSelectionPublicKey,
      .bytes s.record.phoneSigningPublicKey, .bytes s.record.offerDigest,
      .bytes s.record.transcriptFingerprint, .unsigned s.createdAt, .unsigned s.lastSeen,
      .unsigned s.capacity], item.encode.length ≤ 169 := by
    simp only [List.forall_mem_cons, List.not_mem_nil, false_implies, implies_true, and_true]
    exact ⟨hunsigned _, hbytes _ (by decide), hbytes _ (by decide),
      (Item.encode_text_length_le h.label).trans (by decide),
      Item.encode_text_length_le h.recipient, hbytes _ (by decide), hbytes _ (by decide),
      hbytes _ (by decide), hbytes _ (by decide), hbytes _ (by decide), hunsigned _, hunsigned _,
      hunsigned _⟩
  refine (Item.encode_array_concat_length_le hfields hentries).trans ?_
  simp [maximumStateBytes]

/-- What the store writes for a state whose role keys it accepts is read back. -/
theorem PairingState.WellFormed.read (h : s.WellFormed) (hroles : requireRoles K s.record = .ok ()) :
    decode K (encode s) = .ok s := decode_encode h hroles h.encode_length_le

end Sizes

section Calls

variable {files : Directory} {encoded : List Byte} {nowUnix : U64}

theorem settle_unchanged (files : Directory) :
    Triple (fun w => w = files) settle (fun _ w => w = files) fun _ w => w = files := by
  apply Triple.effect
  · intro w t hw heq
    obtain rfl := Option.some.inj heq
    exact ⟨hw, fun _ => hw⟩
  · exact fun _ hw _ => hw

/-- What `durableReplace` leaves: the file replaced or the directory as it was. -/
def Replaced (files : Directory) (content : List Byte) (url : FileKey) (createOnly : Bool)
    (w : Directory) : Prop :=
  w = files.insert url content ∧ (createOnly → files.lookup url = none)

theorem durableReplace_ends (files : Directory) (content : List Byte) (url : FileKey)
    (createOnly : Bool) :
    Triple (fun w => w = files) (durableReplace content url createOnly)
      (fun _ w => Replaced files content url createOnly w)
      fun _ w => w = files ∨ Replaced files content url createOnly w := by
  have hsettle : Triple (fun w => w = files) settle (fun _ w => w = files)
      fun _ w => w = files ∨ Replaced files content url createOnly w :=
    (settle_unchanged files).weaken (fun _ hw => hw) (fun _ _ hw => hw) fun _ _ hw => Or.inl hw
  have hrename : Triple (fun w => w = files)
      (effect (fun w => if createOnly ∧ w.lookup url ≠ none then none
        else some (w.insert url content)) (.store .storage) : Io Unit)
      (fun _ w => Replaced files content url createOnly w)
      fun _ w => w = files ∨ Replaced files content url createOnly w := by
    apply Triple.effect
    · intro w t hw heq
      subst hw
      split_ifs at heq with hexists
      have hreplaced : Replaced w content url createOnly t := by
        refine ⟨(Option.some.inj heq).symm, fun hcreate => ?_⟩
        by_contra hlookup
        exact hexists ⟨hcreate, hlookup⟩
      exact ⟨hreplaced, fun _ => Or.inr hreplaced⟩
    · exact fun _ hw _ => Or.inl hw
  have hafter : Triple (fun w => Replaced files content url createOnly w) settle
      (fun _ w => Replaced files content url createOnly w)
      fun _ w => w = files ∨ Replaced files content url createOnly w := by
    intro w faults hw
    exact ((settle_unchanged w) w faults rfl).weaken (fun _ t ht => ht ▸ hw)
      fun _ t ht => Or.inr (ht ▸ hw)
  refine Triple.load_bind fun w => Triple.check_bind (fun _ _ => ?_) fun _ _ _ hw => Or.inl hw.1
  refine Triple.weaken ?_ (fun _ hw => hw.1) (fun _ _ hw => hw) fun _ _ hw => hw
  exact Triple.bind hsettle fun _ => Triple.bind hsettle fun _ => Triple.bind hrename fun _ =>
    Triple.bind hafter fun _ => hafter

variable (K) in
/-- `verifyAndConsume` up to its `durableReplace`. -/
def prepareConsumption (encoded : List Byte) (nowUnix : U64) :
    Io (VerifiedUnwrapRequest K × FileKey × PairingState) := do
  let scope ← check (requestScope encoded)
  let url := stateURL K scope.desktopId scope.identityId
  settle
  let content ← check (okOr ((← load).lookup url) (.store .storage))
  let state ← check (decode K content)
  let signing ← check (publicKey K state.record.desktopSigningPublicKey)
  let request ← check (verifyRequest K encoded state.record.desktopId state.record.identityId
    signing nowUnix)
  let next ← check (state.consume K request nowUnix)
  return (request, url, next)

theorem verifyAndConsume_eq : verifyAndConsume K encoded nowUnix =
    prepareConsumption K encoded nowUnix >>= fun prepared =>
      durableReplace (encode prepared.2.2) prepared.2.1 false >>= fun _ => pure prepared.1 := by
  simp only [verifyAndConsume, prepareConsumption, bind_bind, pure_bind_eq]

/-- The state of the request's scope is read, verifies the request and consumes it. -/
structure Consumes (K : CryptoKit) (files : Directory) (encoded : List Byte) (nowUnix : U64)
    (request : VerifiedUnwrapRequest K) (state next : PairingState) : Prop where
  file : ∃ content, files.lookup (stateURL K state.record.desktopId state.record.identityId) =
    some content ∧ decode K content = .ok state
  verified : ∃ signing, publicKey K state.record.desktopSigningPublicKey = .ok signing ∧
    verifyRequest K encoded state.record.desktopId state.record.identityId signing nowUnix =
      .ok request
  consumed : state.consume K request nowUnix = .ok next

theorem prepareConsumption_ends (K : CryptoKit) (encoded : List Byte) (nowUnix : U64)
    (files : Directory) :
    Triple (fun w => w = files) (prepareConsumption K encoded nowUnix)
      (fun prepared w => w = files ∧ ∃ state, Consumes K files encoded nowUnix prepared.1 state
        prepared.2.2 ∧ prepared.2.1 = stateURL K state.record.desktopId state.record.identityId)
      fun _ w => w = files := by
  refine Triple.check_bind (fun scope hscope => ?_) fun _ _ _ hw => hw
  refine Triple.bind (settle_unchanged files) fun _ => Triple.load_bind fun w => ?_
  refine Triple.check_bind (fun content hcontent => ?_) fun _ _ _ hw => hw.1
  refine Triple.check_bind (fun state hstate => ?_) fun _ _ _ hw => hw.1
  refine Triple.check_bind (fun signing hsigning => ?_) fun _ _ _ hw => hw.1
  refine Triple.check_bind (fun request hrequest => ?_) fun _ _ _ hw => hw.1
  refine Triple.check_bind (fun next hnext => ?_) fun _ _ _ hw => hw.1
  refine Triple.pure' fun w' hw => ?_
  obtain ⟨hfiles, rfl⟩ := hw
  subst hfiles
  have hsame := (verifyRequest_eq_ok hrequest).2.2.2.2.1
  rw [hscope] at hsame
  obtain rfl := Except.ok.inj hsame
  exact ⟨rfl, state, ⟨⟨content, okOr_eq_ok.mp hcontent, hstate⟩, ⟨signing, hsigning, hrequest⟩,
    hnext⟩, rfl⟩

/-- A call that throws before its `durableReplace` leaves every file as it was. -/
theorem verifyAndConsume_refused {faults : List Fault}
    (h : ∀ prepared, (prepareConsumption K encoded nowUnix files faults).value ≠ .ok prepared) :
    (verifyAndConsume K encoded nowUnix files faults).store = files := by
  have hends := prepareConsumption_ends K encoded nowUnix files
    files faults rfl
  rw [verifyAndConsume_eq, bind_apply]
  cases hrun : prepareConsumption K encoded nowUnix files faults with
  | mk value w rest =>
      rw [hrun] at h hends
      cases value with
      | ok prepared => exact absurd rfl (h prepared)
      | error stop => exact hends

/-- However a call ends, it has replaced the state file of its scope or nothing. -/
theorem verifyAndConsume_ends (K : CryptoKit) (encoded : List Byte) (nowUnix : U64)
    (files : Directory) :
    Triple (fun w => w = files) (verifyAndConsume K encoded nowUnix)
      (fun request w => ∃ state next, Consumes K files encoded nowUnix request state next ∧
        w = files.insert (stateURL K state.record.desktopId state.record.identityId) (encode next))
      fun _ w => w = files ∨ ∃ request state next,
        Consumes K files encoded nowUnix request state next ∧
        w = files.insert (stateURL K state.record.desktopId state.record.identityId)
          (encode next) := by
  rw [verifyAndConsume_eq]
  refine Triple.bind ((prepareConsumption_ends K encoded nowUnix files).weaken (fun _ hw => hw) (fun _ _ hw => hw)
    fun _ _ hw => Or.inl hw) fun prepared => ?_
  intro w faults hw
  obtain ⟨rfl, state, hconsumes, hurl⟩ := hw
  refine Triple.bind ((durableReplace_ends w (encode prepared.2.2) prepared.2.1 false).weaken
    (fun _ ht => ht) (fun _ t ht => ht.1) fun _ t ht => ?_) (fun _ => Triple.pure' fun t ht => ?_) w
    faults rfl
  · rcases ht with ht | ht
    · exact Or.inl ht
    · exact Or.inr ⟨_, state, _, hconsumes, hurl ▸ ht.1⟩
  · exact ⟨state, _, hconsumes, hurl ▸ ht⟩

/-- Without faults a consumption succeeds and replaces the state file. -/
theorem Consumes.run {request : VerifiedUnwrapRequest K} {state next : PairingState}
    (h : Consumes K files encoded nowUnix request state next) :
    verifyAndConsume K encoded nowUnix files [] = ⟨.ok request,
      files.insert (stateURL K state.record.desktopId state.record.identityId) (encode next), []⟩ := by
  obtain ⟨content, hlookup, hdecode⟩ := h.file
  obtain ⟨signing, hsigning, hverify⟩ := h.verified
  have hscope := (verifyRequest_eq_ok hverify).2.2.2.2.1
  simp [verifyAndConsume, bind_apply, hscope, settle, effect, hlookup, hdecode, hsigning, hverify,
    h.consumed, durableReplace, ensure]

end Calls

end AgePluginPhone.Ios
