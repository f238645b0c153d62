import AgePluginPhone.Ios.PairingStateStore

/-!
# Role keys of stored iOS pairings

`create` writes a pairing without comparing its role keys across the two devices; every later
scan decodes every file and compares them. A stored pairing stays readable exactly when the
desktop offered neither of the phone's own keys.
-/

namespace AgePluginPhone.Ios

open Library Cbor StrictCbor StorageM

variable {K : CryptoKit}

/-- What `decode` requires of a state besides its size and the guards on its role keys. -/
structure PairingState.WellFormed (s : PairingState) : Prop where
  label : (utf8 s.record.desktopLabel).length ≤ 64
  recipient : (utf8 s.record.recipient).length ≤ 160
  seen : s.createdAt ≤ s.lastSeen
  capacity : 1 ≤ s.capacity ∧ s.capacity ≤ maximumCapacity
  length : s.entries.length ≤ s.capacity
  entries : requireEntries s.lastSeen s.entries = .ok ()

section RoundTrip

private theorem exactBytes_item {n : ℕ} (b : Bytes n) : exactBytes n (.bytes b) = .ok b := by
  simp [exactBytes, b.2]

private theorem exactUnsigned_item (n : U64) : exactUnsigned (.unsigned n) = .ok n := by
  simp [exactUnsigned, n.isLt]

private theorem boundedText_item {text : String} {n : ℕ} (h : (utf8 text).length ≤ n) :
    boundedText n (.text text) = .ok text := by
  simp [boundedText, h]

@[simp] theorem cbor_ok {α : Type} (a : α) : cbor (.ok a : Except StrictCborError α) = .ok a := rfl

private theorem decodeEntry_item (e : ReplayEntry) : decodeEntry (entryItem e) = .ok e := by
  simp [decodeEntry, entryItem, exactArray, exactBytes_item, exactUnsigned_item]

private theorem mapM_entryItem (entries : List ReplayEntry) :
    (entries.map entryItem).mapM decodeEntry = .ok entries := by
  have hitems : entries.mapM (decodeEntry ∘ entryItem) = .ok (entries.map id) :=
    mapM_eq_ok fun e _ => decodeEntry_item e
  rw [List.mapM_map, hitems, List.map_id]

private theorem bytes_encodable {n limit levels : ℕ} (hn : n < 2 ^ 64) (b : Bytes n) :
    Encodable limit (levels + 1) (.bytes b) :=
  .bytes (by rw [b.2]; exact hn)

private theorem entryItem_encodable (e : ReplayEntry) : Encodable maximumCapacity 2 (entryItem e) := by
  refine .array (by simp [maximumCapacity]) (by simp) ?_
  simp only [List.forall_mem_cons, List.not_mem_nil, false_implies, implies_true, and_true]
  exact ⟨bytes_encodable (by decide) _, bytes_encodable (by decide) _, .unsigned e.expiresAt.isLt⟩

theorem Encodable.mono {limit levels levels' : ℕ} {item : Item} (h : Encodable limit levels item)
    (hle : levels ≤ levels') : Encodable limit levels' item := by
  induction h generalizing levels' with
  | unsigned hn =>
      obtain ⟨k, rfl⟩ := Nat.exists_eq_add_of_le' (show 1 ≤ levels' by omega)
      exact .unsigned hn
  | bytes hlen =>
      obtain ⟨k, rfl⟩ := Nat.exists_eq_add_of_le' (show 1 ≤ levels' by omega)
      exact .bytes hlen
  | text hlen =>
      obtain ⟨k, rfl⟩ := Nat.exists_eq_add_of_le' (show 1 ≤ levels' by omega)
      exact .text hlen
  | array hlimit hlen _ ih =>
      obtain ⟨k, rfl⟩ := Nat.exists_eq_add_of_le' (show 1 ≤ levels' by omega)
      exact .array hlimit hlen fun item hitem => ih item hitem (by omega)
  | null =>
      obtain ⟨k, rfl⟩ := Nat.exists_eq_add_of_le' (show 1 ≤ levels' by omega)
      exact .null

theorem PairingState.WellFormed.item_encodable {s : PairingState} (h : s.WellFormed) :
    Encodable maximumCapacity (maximumDepth + 1) s.item := by
  have hlabel := h.label
  have hrecipient := h.recipient
  have hcapacity := h.capacity.2
  have hlength := h.length
  simp only [maximumCapacity] at hcapacity
  refine .array (by simp [PairingState.fields, maximumCapacity]) (by simp [PairingState.fields]) ?_
  simp only [PairingState.fields, List.forall_mem_cons, List.not_mem_nil, false_implies,
    implies_true, and_true, maximumDepth]
  refine ⟨.unsigned (by decide), bytes_encodable (by decide) _, bytes_encodable (by decide) _,
    .text (by omega), .text (by omega), bytes_encodable (by decide) _,
    bytes_encodable (by decide) _, bytes_encodable (by decide) _, bytes_encodable (by decide) _,
    bytes_encodable (by decide) _, .unsigned s.createdAt.isLt, .unsigned s.lastSeen.isLt,
    .unsigned (by omega), ?_⟩
  refine .array (by simp only [List.length_map, maximumCapacity]; omega)
    (by simp only [List.length_map]; omega) ?_
  simp only [List.mem_map, forall_exists_index, and_imp, forall_apply_eq_imp_iff₂]
  exact fun e _ => (entryItem_encodable e).mono (by decide)

/-- Reading the file of a well-formed state comes down to the guards on its role keys. -/
theorem decode_encode_eq {s : PairingState} (h : s.WellFormed)
    (hsize : (encode s).length ≤ maximumStateBytes) :
    decode K (encode s) = requireRoles K s.record >>= fun _ => .ok s := by
  have hcbor : StrictCbor.decode (encode s) maximumStateBytes maximumCapacity = .ok s.item :=
    decode_encode_item h.item_encodable (by decide) hsize
  have hcap : s.capacity < 18446744073709551616 := by
    have := h.capacity.2
    simp only [maximumCapacity] at this
    omega
  have hint : intOfUnsigned ⟨s.capacity, hcap⟩ = .ok s.capacity := by
    have := h.capacity.2
    simp only [maximumCapacity] at this
    simp only [intOfUnsigned]
    exact if_pos (by omega)
  have hunsigned : exactUnsigned (.unsigned s.capacity) = .ok ⟨s.capacity, hcap⟩ := by
    simp [exactUnsigned, hcap]
  have harray : exactArray 14 s.item = .ok s.fields := by
    simp [exactArray, PairingState.item, PairingState.fields]
  have hversion : exactUnsigned (.unsigned 2) = .ok 2 := rfl
  have hguard : ensure (s.createdAt ≤ s.lastSeen ∧ 1 ≤ s.capacity ∧
      s.capacity ≤ maximumCapacity) (Failure.store .malformed) = .ok () :=
    ensure_true _ ⟨h.seen, h.capacity⟩
  have hcount : ensure ((s.entries.map entryItem).length ≤ s.capacity)
      (Failure.store .malformed) = .ok () := ensure_true _ (by simpa using h.length)
  have htwo : ((2 : U64).val = 2) := rfl
  simp only [decode, ensure_true _ hsize, hcbor, ok_bind, harray, PairingState.fields, cbor_ok,
    hversion, ensure_true _ htwo, exactBytes_item, boundedText_item h.label,
    boundedText_item h.recipient, exactUnsigned_item, hunsigned, hint, hguard, entryValues,
    okOr_some, hcount, mapM_entryItem, h.entries, pure_eq_ok]

theorem decode_encode {s : PairingState} (h : s.WellFormed)
    (hroles : requireRoles K s.record = .ok ()) (hsize : (encode s).length ≤ maximumStateBytes) :
    decode K (encode s) = .ok s := by
  rw [decode_encode_eq h hsize, hroles, ok_bind]

end RoundTrip

section Scans

variable {files : Directory} {identityId : Bytes 16}

/-- Every listed file decodes. -/
def Readable (K : CryptoKit) (files : Directory) : Prop :=
  ∀ file ∈ files.entries, ∃ s, decode K file.2 = .ok s

/-- No scope has both a state file and a deleting file. -/
def Separate (files : Directory) : Prop :=
  ∀ n, files.lookup (n, false) ≠ none → files.lookup (n, true) = none

/-- The handle of a file that holds a pairing of the identity. -/
def ownHandle (K : CryptoKit) (identityId : Bytes 16) (file : Sigma fun _ : FileKey => List Byte) :
    Option Digest :=
  match decode K file.2 with
  | .ok s => if s.record.identityId = identityId then some (handle K s.record) else none
  | .error _ => none

theorem ownHandle_eq_some {file : Sigma fun _ : FileKey => List Byte} {requested : Digest} :
    ownHandle K identityId file = some requested ↔ ∃ s, decode K file.2 = .ok s ∧
      s.record.identityId = identityId ∧ handle K s.record = requested := by
  unfold ownHandle
  cases h : decode K file.2 <;> simp

/-- A readable directory is listed, by the handles of the identity's files. -/
theorem summaries_of_readable (h : Readable K files) (identityId : Bytes 16) :
    ∃ items, summaries K files identityId = .ok items ∧
      (items.map PairedDesktopSummary.handle).Perm
        (files.entries.filterMap (ownHandle K identityId)) := by
  have hread : ∀ file ∈ files.entries, ∃ found, fileSummary K identityId file = .ok found ∧
      found.map PairedDesktopSummary.handle = ownHandle K identityId file := by
    intro file hfile
    obtain ⟨s, hs⟩ := h file hfile
    simp only [fileSummary, ownHandle, hs, ok_bind, pure_eq_ok]
    refine ⟨_, rfl, ?_⟩
    split_ifs <;> rfl
  choose! found hfound hhandle using hread
  simp only [summaries, mapM_eq_ok hfound, ok_bind, pure_eq_ok]
  refine ⟨_, rfl, ?_⟩
  refine ((List.perm_insertionSort _ _).map _).trans (List.Perm.of_eq ?_)
  rw [List.reduceOption, List.filterMap_map, List.map_filterMap]
  exact List.filterMap_congr fun file hfile => hhandle file hfile

/-- The scan for a handle stops at the first file that carries it. -/
theorem matchingURL_of_readable {requested : Digest}
    {listed : List (Sigma fun _ : FileKey => List Byte)}
    (h : ∀ file ∈ listed, ∃ s, decode K file.2 = .ok s)
    (hmem : requested ∈ listed.filterMap (ownHandle K identityId)) :
    ∃ file ∈ listed, matchingURL K requested identityId listed = .ok (some file.1) ∧
      ownHandle K identityId file = some requested := by
  induction listed with
  | nil => simp at hmem
  | cons file listed ih =>
      obtain ⟨hhead, htail⟩ := List.forall_mem_cons.mp h
      obtain ⟨s, hs⟩ := hhead
      by_cases hmatch : s.record.identityId = identityId ∧ handle K s.record = requested
      · refine ⟨file, List.mem_cons_self, ?_, ownHandle_eq_some.mpr ⟨s, hs, hmatch⟩⟩
        simp [matchingURL, hs, hmatch]
      · have hnone : ownHandle K identityId file ≠ some requested := by
          intro hown
          obtain ⟨t, ht, hown⟩ := ownHandle_eq_some.mp hown
          rw [hs] at ht
          obtain rfl := Except.ok.inj ht
          exact hmatch hown
        obtain ⟨other, hother, hscan, hown⟩ := ih htail (by
          obtain ⟨x, hx, hxh⟩ := List.mem_filterMap.mp hmem
          rcases List.mem_cons.mp hx with rfl | hx
          · exact absurd hxh hnone
          · exact List.mem_filterMap.mpr ⟨x, hx, hxh⟩)
        refine ⟨other, List.mem_cons_of_mem _ hother, ?_, hown⟩
        simp [matchingURL, hs, hmatch, hscan]

private theorem erase_insert_of_lookup {target : FileKey} {content : List Byte}
    (h : files.lookup target = none) : (files.insert target content).erase target = files := by
  have hkeys : target ∉ files.entries.keys := AList.lookup_eq_none.mp h
  apply AList.ext
  change List.kerase target (List.kinsert target content files.entries) = files.entries
  have hhead : target = (⟨target, content⟩ : Sigma fun _ : FileKey => List Byte).1 := rfl
  rw [List.kinsert_def, List.kerase_cons_eq hhead, List.kerase_of_notMem_keys hkeys]

/-- Revoking a listed handle removes the file the scan found. -/
theorem revoke_of_readable {requested : Digest} (h : Readable K files)
    (hmem : requested ∈ files.entries.filterMap (ownHandle K identityId)) :
    ∃ file ∈ files.entries, ∃ files', revoke K requested identityId files [] =
      ⟨.ok (), files', []⟩ ∧ ownHandle K identityId file = some requested ∧
      (Separate files → files' = files.erase file.1) := by
  obtain ⟨⟨⟨n, pending⟩, content⟩, hfile, hscan, hown⟩ := matchingURL_of_readable h hmem
  obtain ⟨s, hs, hidentity, hhandle⟩ := ownHandle_eq_some.mp hown
  have hlookup : files.lookup (n, pending) = some content := AList.mem_lookup_iff.mpr hfile
  refine ⟨_, hfile, ?_⟩
  cases pending with
  | true =>
      refine ⟨files.erase (n, true), ?_, hown, fun _ => rfl⟩
      simp [revoke, bind_apply, hscan, settle, effect, hlookup, hs, hhandle, ensure, unlinkFile]
  | false =>
      refine ⟨((files.erase (n, false)).insert (n, true) content).erase (n, true), ?_, hown, ?_⟩
      · simp [revoke, bind_apply, hscan, settle, effect, hlookup, hs, hhandle, ensure, unlinkFile,
          renameFile]
      · intro hseparate
        refine erase_insert_of_lookup ?_
        rw [AList.lookup_erase_ne (by simp)]
        exact hseparate n (by simp [hlookup])

private theorem perm_cons_erase {url : FileKey} {content : List Byte}
    (h : files.lookup url = some content) :
    files.entries.Perm (⟨url, content⟩ :: (files.erase url).entries) := by
  have hkeys : url ∈ files.entries.keys := AList.lookup_isSome.mp (by simp [h])
  obtain ⟨found, before, after, -, hentries, herase⟩ := List.exists_of_kerase hkeys
  have hmem : (⟨url, found⟩ : Sigma fun _ : FileKey => List Byte) ∈ files.entries := by
    rw [hentries]
    simp
  obtain rfl : found = content := by
    have hfound : files.lookup url = some found := AList.mem_lookup_iff.mpr hmem
    exact Option.some.inj (hfound.symm.trans h)
  change files.entries.Perm (⟨url, found⟩ :: files.entries.kerase url)
  rw [herase, hentries]
  exact List.perm_middle

private theorem lookup_erase_eq_none {url other : FileKey} (h : files.lookup other = none) :
    (files.erase url).lookup other = none := by
  by_cases hother : other = url
  · subst hother
    exact AList.lookup_erase other files
  · rw [AList.lookup_erase_ne hother, h]

theorem Readable.erase (h : Readable K files) (url : FileKey) : Readable K (files.erase url) :=
  fun file hfile => h file ((List.kerase_sublist url files.entries).subset hfile)

theorem Separate.erase (h : Separate files) (url : FileKey) : Separate (files.erase url) := by
  intro n hlive
  refine lookup_erase_eq_none (h n fun hnone => hlive (lookup_erase_eq_none hnone))

/-- A readable directory without a doubly stored scope is cleared of the identity's pairings. -/
theorem revokeAll_of_readable (h : Readable K files) (hseparate : Separate files)
    (identityId : Bytes 16) :
    ∃ files', revokeAll K identityId files [] = ⟨.ok (), files', []⟩ ∧
      Readable K files' ∧ files'.entries.filterMap (ownHandle K identityId) = [] := by
  obtain ⟨items, hitems, hperm⟩ := summaries_of_readable h identityId
  let Remaining (items : List PairedDesktopSummary) (files : Directory) : Prop :=
    Readable K files ∧ Separate files ∧ (items.map PairedDesktopSummary.handle).Perm
      (files.entries.filterMap (ownHandle K identityId))
  have hloop : Completes (Remaining items)
      (items.forM fun item => revoke K item.handle identityId) fun _ => Remaining [] := by
    refine Completes.forM ?_
    rintro item rest files ⟨hread, hsep, hhandles⟩
    obtain ⟨file, hfile, files', hrun, hown, herase⟩ :=
      revoke_of_readable hread (hhandles.subset List.mem_cons_self)
    obtain rfl := herase hsep
    refine ⟨(), _, hrun, hread.erase _, hsep.erase _, ?_⟩
    have hcons := (perm_cons_erase (AList.mem_lookup_iff.mpr hfile)).filterMap
      (ownHandle K identityId)
    rw [List.filterMap_cons_some hown] at hcons
    exact (hhandles.trans hcons).cons_inv
  obtain ⟨_, files', hrun, hdone⟩ := hloop files ⟨h, hseparate, hperm⟩
  refine ⟨files', ?_, hdone.1, List.nil_perm.mp hdone.2.2⟩
  rw [revokeAll, bind_ok (load_apply files []), hitems]
  exact (bind_ok (check_apply_ok rfl)).trans hrun

end Scans

section Create

private theorem settle_triple (files : Directory) :
    Triple (fun w => w = files) settle (fun _ w => w = files) fun _ _ => True :=
  Triple.effect (fun _ _ hw heq => ⟨Option.some.inj heq ▸ hw, fun _ => trivial⟩)
    fun _ _ _ => trivial

private theorem durableReplace_triple (files : Directory) (content : List Byte) (url : FileKey) :
    Triple (fun w => w = files) (durableReplace content url true)
      (fun _ w => w = files.insert url content) fun _ _ => True := by
  have hrename : Triple (fun w => w = files) (effect (fun w => if true ∧ w.lookup url ≠ none then none
      else some (w.insert url content)) (.store .storage) : Io Unit)
      (fun _ w => w = files.insert url content) fun _ _ => True := by
    refine Triple.effect (fun w t hw heq => ⟨?_, fun _ => trivial⟩) fun _ _ _ => trivial
    subst hw
    split_ifs at heq
    exact (Option.some.inj heq).symm
  refine Triple.load_bind fun _ => Triple.check_bind (fun _ _ => ?_) fun _ _ _ _ => trivial
  exact Triple.weaken (Triple.bind (settle_triple files) fun _ => Triple.bind (settle_triple files)
    fun _ => Triple.bind hrename fun _ => Triple.bind (settle_triple _) fun _ => settle_triple _)
    (fun _ hw => hw.1) (fun _ _ hw => hw) fun _ _ hw => hw

/-- A creation that returns has written the initial state. -/
theorem create_eq_ok {offer : VerifiedPairingOffer K} {response : VerifiedPairingResponse K}
    {nowUnix : U64} {files : Directory} {faults : List Fault} {found : Digest}
    (h : (create K offer response nowUnix files faults).value = .ok found) :
    (create K offer response nowUnix files faults).store =
      files.insert (stateURL K offer.desktopId response.identityId)
        (encode (initialState (pairingRecord K offer response) nowUnix)) := by
  have htriple : Triple (fun w => w = files) (create K offer response nowUnix)
      (fun _ w => w = files.insert (stateURL K offer.desktopId response.identityId)
        (encode (initialState (pairingRecord K offer response) nowUnix))) fun _ _ => True := by
    refine Triple.check_bind (fun _ _ => ?_) fun _ _ _ _ => trivial
    refine Triple.bind (settle_triple files) fun _ => ?_
    refine Triple.load_bind fun _ => Triple.check_bind (fun _ _ => ?_) fun _ _ _ _ => trivial
    exact Triple.bind ((durableReplace_triple files _ _).weaken (fun _ hw => hw.1)
      (fun _ _ hw => hw) fun _ _ hw => hw) fun _ => Triple.pure' fun _ hw => hw
  exact (htriple files faults rfl).of_ok h

theorem initialState_wellFormed {record : PairingRecord} (nowUnix : U64)
    (hlabel : (utf8 record.desktopLabel).length ≤ 64)
    (hrecipient : (utf8 record.recipient).length ≤ 160) :
    (initialState record nowUnix).WellFormed where
  label := hlabel
  recipient := hrecipient
  seen := le_rfl
  capacity := show 1 ≤ 1024 ∧ 1024 ≤ 16384 by decide
  length := Nat.zero_le _
  entries := by simp [initialState, requireEntries]

/-- Every initial state fits the size limit of a file. -/
theorem initialState_size {record : PairingRecord} (nowUnix : U64)
    (hlabel : (utf8 record.desktopLabel).length ≤ 64)
    (hrecipient : (utf8 record.recipient).length ≤ 160) :
    (encode (initialState record nowUnix)).length ≤ maximumStateBytes := by
  have hbytes : ∀ {n : ℕ} (b : Bytes n), n ≤ 33 → (Item.encode (.bytes b)).length ≤ 169 :=
    fun b hn => (Item.encode_bytes_length_le b.2.le).trans (by omega)
  have hunsigned : ∀ n, (Item.encode (.unsigned n)).length ≤ 169 :=
    fun n => (Item.encode_unsigned_length_le n).trans (by decide)
  have hfields : ∀ item ∈ (initialState record nowUnix).fields, item.encode.length ≤ 169 := by
    simp only [PairingState.fields, initialState, List.map_nil, List.forall_mem_cons,
      List.not_mem_nil, false_implies, implies_true, and_true]
    exact ⟨hunsigned 2, hbytes _ (by decide), hbytes _ (by decide),
      (Item.encode_text_length_le hlabel).trans (by decide), Item.encode_text_length_le hrecipient,
      hbytes _ (by decide), hbytes _ (by decide), hbytes _ (by decide), hbytes _ (by decide),
      hbytes _ (by decide), hunsigned _, hunsigned _, hunsigned _,
      (Item.encode_array_length_le (n := 0) (by simp)).trans (by decide)⟩
  refine (Item.encode_array_length_le hfields).trans ?_
  simp [PairingState.fields, maximumStateBytes]

end Create

section Roles

variable {offer : VerifiedPairingOffer K} {identityId : Bytes 16} {identityKey signingKey : K.PublicKey}
  {identity : IdentityPublicMetadata}

/-- The desktop offered none of the phone's own public keys as its signing or selection key. -/
def OffersNoPhoneKey (offer : VerifiedPairingOffer K) (identityKey signingKey : K.PublicKey) :
    Prop :=
  (offer.desktopSigningPublicKey ≠ identityKey ∧ offer.desktopSigningPublicKey ≠ signingKey) ∧
    offer.desktopSelectionPublicKey ≠ identityKey ∧ offer.desktopSelectionPublicKey ≠ signingKey

instance (offer : VerifiedPairingOffer K) (identityKey signingKey : K.PublicKey) :
    Decidable (OffersNoPhoneKey offer identityKey signingKey) :=
  inferInstanceAs (Decidable (_ ∧ _))

/-- The stored pairing decodes to what was stored, its role keys and the phone's identity key are
four keys, and no scan of the directory fails on its account. -/
structure StaysReadable (K : CryptoKit) (record : PairingRecord) (nowUnix : U64)
    (identityPublicKey : List Byte) (files : Directory) : Prop where
  decoded : ∃ content, files.lookup (stateURL K record.desktopId record.identityId) = some content ∧
    decode K content = .ok (initialState record nowUnix)
  distinct : [identityPublicKey, record.phoneSigningPublicKey.1, record.desktopSigningPublicKey.1,
    record.desktopSelectionPublicKey.1].Nodup
  summaries : Readable K (files.erase (stateURL K record.desktopId record.identityId)) →
    ∃ items, summaries K files record.identityId = .ok items
  revoke : Readable K (files.erase (stateURL K record.desktopId record.identityId)) →
    ∃ files', revoke K (handle K record) record.identityId files [] = ⟨.ok (), files', []⟩
  revokeAll : Readable K (files.erase (stateURL K record.desktopId record.identityId)) →
    Separate files → ∃ files', revokeAll K record.identityId files [] = ⟨.ok (), files', []⟩

theorem committedMetadata_eq_some
    (h : committedMetadata K identityId identityKey signingKey = some identity) :
    identityKey ≠ signingKey ∧ identity.identityPublicKey = (compressed K identityKey).1 ∧
      (utf8 identity.recipient).length ≤ 160 := by
  simp only [committedMetadata] at h
  split_ifs at h with hne
  obtain rfl := Option.some.inj h
  refine ⟨fun heq => hne (congrArg _ heq), rfl, ?_⟩
  exact (RecipientEncoding.encode_length_le K identityKey false).trans (by decide)

private theorem Readable.of_erase {files : Directory} {url : FileKey} {content : List Byte}
    (h : Readable K (files.erase url)) (hlookup : files.lookup url = some content) {s : PairingState}
    (hs : decode K content = .ok s) : Readable K files := by
  intro file hfile
  rcases List.mem_cons.mp ((perm_cons_erase hlookup).subset hfile) with rfl | hfile
  · exact ⟨s, hs⟩
  · exact h file hfile

/-- What `create` stores is readable when its record passes the role guards. -/
theorem staysReadable_of_roles {record : PairingRecord} {nowUnix : U64}
    {identityPublicKey : List Byte} (files : Directory)
    (hs : (initialState record nowUnix).WellFormed) (hroles : requireRoles K record = .ok ())
    (hsize : (encode (initialState record nowUnix)).length ≤ maximumStateBytes)
    (hdistinct : [identityPublicKey, record.phoneSigningPublicKey.1,
      record.desktopSigningPublicKey.1, record.desktopSelectionPublicKey.1].Nodup) :
    StaysReadable K record nowUnix identityPublicKey
      (files.insert (stateURL K record.desktopId record.identityId)
        (encode (initialState record nowUnix))) := by
  have hdecode := decode_encode hs hroles hsize
  have hlookup := AList.lookup_insert (a := stateURL K record.desktopId record.identityId)
    (b := encode (initialState record nowUnix)) files
  refine ⟨⟨_, hlookup, hdecode⟩, hdistinct, fun hread => ?_, fun hread => ?_, fun hread hsep => ?_⟩
  · obtain ⟨items, hitems, -⟩ := summaries_of_readable (hread.of_erase hlookup hdecode) _
    exact ⟨items, hitems⟩
  · have hmem : handle K record ∈ (files.insert (stateURL K record.desktopId record.identityId)
        (encode (initialState record nowUnix))).entries.filterMap
          (ownHandle K record.identityId) :=
      List.mem_filterMap.mpr ⟨_, AList.mem_lookup_iff.mp hlookup,
        ownHandle_eq_some.mpr ⟨_, hdecode, rfl, rfl⟩⟩
    obtain ⟨-, -, files', hrun, -⟩ := revoke_of_readable (hread.of_erase hlookup hdecode) hmem
    exact ⟨files', hrun⟩
  · obtain ⟨files', hrun, -⟩ := revokeAll_of_readable (hread.of_erase hlookup hdecode) hsep _
    exact ⟨files', hrun⟩

/-- One file that does not decode fails every listing. -/
theorem summaries_of_unreadable {files : Directory} {file : Sigma fun _ : FileKey => List Byte}
    (hfile : file ∈ files.entries) (h : ∀ s, decode K file.2 ≠ .ok s) (identityId : Bytes 16)
    (items : List PairedDesktopSummary) : summaries K files identityId ≠ .ok items := by
  intro hitems
  obtain ⟨found, hfound, -⟩ := bind_eq_ok.mp hitems
  obtain ⟨result, hresult⟩ := ok_of_mapM_eq_ok hfound file hfile
  obtain ⟨s, hs, -⟩ := bind_eq_ok.mp hresult
  exact h s hs

/-- A pairing stored with one of its desktop keys equal to the phone's signing key fails every
listing of every identity. -/
theorem summaries_of_collision {record : PairingRecord} (nowUnix : U64) (files : Directory)
    (hlabel : (utf8 record.desktopLabel).length ≤ 64)
    (hrecipient : (utf8 record.recipient).length ≤ 160)
    (hcollision : record.desktopSigningPublicKey = record.phoneSigningPublicKey ∨
      record.desktopSelectionPublicKey = record.phoneSigningPublicKey)
    (identityId : Bytes 16) (items : List PairedDesktopSummary) :
    summaries K (files.insert (stateURL K record.desktopId record.identityId)
      (encode (initialState record nowUnix))) identityId ≠ .ok items := by
  refine summaries_of_unreadable (AList.mem_lookup_iff.mp (AList.lookup_insert files))
    (fun s hs => ?_) identityId items
  rw [decode_encode_eq (initialState_wellFormed nowUnix hlabel hrecipient)
    (initialState_size nowUnix hlabel hrecipient)] at hs
  obtain ⟨_, hroles, -⟩ := bind_eq_ok.mp hs
  simp only [requireRoles, bind_eq_ok, ensure_eq_ok, exists_const] at hroles
  obtain ⟨⟨-, hsigning, hselection⟩, -⟩ := hroles
  rcases hcollision with heq | heq
  · exact hsigning heq
  · exact hselection heq

/-- The stored pairing stays readable exactly when the desktop offered no key of the phone. -/
theorem created_pairing_readable_iff {encoded : List Byte} {nonce : Bytes 32}
    {rawSignature : List Byte → List Byte} {response : VerifiedPairingResponse K}
    (hoffer : verifyPairingOffer K encoded = .ok offer)
    (hidentity : committedMetadata K identityId identityKey signingKey = some identity)
    (hresponse : createPairingResponse K offer identity signingKey nonce rawSignature =
      .ok response)
    (nowUnix : U64) (files : Directory) (faults : List Fault) (found : Digest)
    (hcreate : (create K offer response nowUnix files faults).value = .ok found) :
    StaysReadable K (pairingRecord K offer response) nowUnix identity.identityPublicKey
      (create K offer response nowUnix files faults).store ↔
      OffersNoPhoneKey offer identityKey signingKey := by
  obtain ⟨hlabel, hoffered⟩ := verifyPairingOffer_eq_ok hoffer
  obtain ⟨hown, hpublic, hrecipient⟩ := committedMetadata_eq_some hidentity
  obtain ⟨-, hname, hphone, -⟩ := createPairingResponse_eq_ok hresponse
  have hcompressed : ∀ {a b : K.PublicKey}, (compressed K a).1 = (compressed K b).1 → a = b :=
    fun h => compressed_injective K (Subtype.ext h)
  constructor
  · intro h
    have hdistinct := h.distinct
    simp only [pairingRecord, hphone, hpublic, List.nodup_cons, List.mem_cons, List.not_mem_nil,
      or_false, not_or] at hdistinct
    obtain ⟨⟨-, hsi, hli⟩, ⟨hsp, hlp⟩, -⟩ := hdistinct
    exact ⟨⟨fun heq => hsi (by rw [heq]), fun heq => hsp (by rw [heq])⟩,
      fun heq => hli (by rw [heq]), fun heq => hlp (by rw [heq])⟩
  · rintro ⟨⟨hsi, hsp⟩, hli, hlp⟩
    rw [create_eq_ok hcreate]
    have htext : (utf8 (pairingRecord K offer response).recipient).length ≤ 160 := by
      rw [pairingRecord, hname]
      exact hrecipient
    have hroles : requireRoles K (pairingRecord K offer response) = .ok () := by
      have hkey : ∀ key : K.PublicKey, publicKey K (compressed K key) = .ok key :=
        fun key => publicKey_compressed.mpr rfl
      have hguard := ensure_true (Failure.store .malformed)
        (show compressed K offer.desktopSigningPublicKey ≠
            compressed K offer.desktopSelectionPublicKey ∧
          compressed K offer.desktopSigningPublicKey ≠ compressed K signingKey ∧
          compressed K offer.desktopSelectionPublicKey ≠ compressed K signingKey from
        ⟨fun heq => hoffered (compressed_injective K heq),
          fun heq => hsp (compressed_injective K heq),
          fun heq => hlp (compressed_injective K heq)⟩)
      simp only [requireRoles, pairingRecord, hphone, hguard, ok_bind, hkey, pure_eq_ok]
    refine staysReadable_of_roles files (initialState_wellFormed nowUnix hlabel htext) hroles
      (initialState_size nowUnix hlabel htext) ?_
    simp only [pairingRecord, hphone, hpublic, List.nodup_cons, List.mem_cons, List.not_mem_nil,
      or_false, not_or, not_false_eq_true, List.nodup_nil, and_true]
    exact ⟨⟨fun heq => hown (hcompressed heq), fun heq => hsi (hcompressed heq).symm,
      fun heq => hli (hcompressed heq).symm⟩, ⟨fun heq => hsp (hcompressed heq).symm,
      fun heq => hlp (hcompressed heq).symm⟩, fun heq => hoffered (hcompressed heq)⟩

end Roles

section Sample

/-- The phone's two keys and the two a desktop offers. -/
inductive SampleKey
  | identity
  | phoneSigning
  | desktopSigning
  | desktopSelection
  deriving DecidableEq

private def uncompressed (x y : ℕ) : Bytes 65 :=
  ⟨4 :: (bigEndian 32 x ++ bigEndian 32 y), by simp⟩

private def sampleX963 : SampleKey → Bytes 65
  | .identity => uncompressed 0x6b17d1f2e12c4247f8bce6e563a440f277037d812deb33a0f4a13945d898c296
      0x4fe342e2fe1a7f9b8ee7eb4a7c0f9e162bce33576b315ececbb6406837bf51f5
  | .phoneSigning => uncompressed
      0xe2534a3532d08fbba02dde659ee62bd0031fe2db785596ef509302446b030852
      0xe0f1575a4c633cc719dfee5fda862d764efc96c3f30ee0055c42c23f184ed8c6
  | .desktopSigning => uncompressed
      0x7cf27b188d034f7e8a52380304b51ac3c08969e277f21b35a60b48fc47669978
      0x07775510db8ed040293d9ac69f7430dbba7dade63ce982299e04b79d227873d1
  | .desktopSelection => uncompressed
      0x5ecbe4d1a6330a44c8f7ef951d4bf165e6c6b721efada985fb41661bc6e7fd6c
      0x8734640c4998ff7e374b06ce1a64a2ecd82ab036384fb83d9a79b127a27d5032

private def sampleFromCompressed (bytes : Bytes 33) : Option SampleKey :=
  [SampleKey.identity, .phoneSigning, .desktopSigning, .desktopSelection].find? fun key =>
    compressX963 (sampleX963 key) = bytes

private def sampleOfferPayload (selection : SampleKey) : List Byte :=
  (Item.array [.unsigned 2, .unsigned 1, .unsigned 1, .bytes (List.replicate 16 1),
    .text "laptop", .bytes (compressX963 (sampleX963 .desktopSigning)),
    .bytes (compressX963 (sampleX963 selection)), .bytes (List.replicate 32 7)]).encode

/-- All sample signatures have the same first half. -/
private def sampleSignature (s : ℕ) : List Byte :=
  bigEndian 32 0x26efcebd0ee9e34a669187e18b3a9122b2f733945b649cc9f9f921e9f9dad812 ++ bigEndian 32 s

private def sampleOfferSignature (selection : SampleKey) : List Byte :=
  sampleSignature (if selection = .phoneSigning then
      0x117594ffea7c46d679c98d316f3d14340a2d408c110013a99c3f06c9786133aa
    else 0x4302981766ba1f2553faa3cc87bcdc7fdcb3fd13ce3e4222a175252e09adfe22)

/-- A signed offer; its selection key may be the phone's signing key. -/
def sampleOffer (selection : SampleKey) : List Byte :=
  encodeSigned (sampleOfferPayload selection) (sampleOfferSignature selection)

def sampleResponseSignature (selection : SampleKey) : List Byte :=
  sampleSignature (if selection = .phoneSigning then
      0x35e79173ec0c3b3660df11c7cc5718c9f32dbbd180f73ed835aaa8866ae44a4c
    else 0x4421cffe3021736a5c5db14d7a01794ece8eddf3dc500ac50be4620651a6cb6b)

private def sampleOfferDigest (selection : SampleKey) : ℕ :=
  if selection = .phoneSigning then
    0x099d15d1bd57a10e8a5e71a02a8627aba026c1b53eedbc4cfeb3fdbbf1d09871
  else 0x1c7eff69cd461998f88101b9a168d71b43d1f9f5680a20d8dc1c2c06f0eccd91

private def sampleFingerprint (selection : SampleKey) : ℕ :=
  if selection = .phoneSigning then
    0xf9ebbffc33961267cee5f84690aefbebaadbcb4edc54bdf5995206526c5172d0
  else 0x823f544dbfe96e1757000fc3d3df6d1018da52783f9a9a030769c09f05cb7459

private def sampleResponse (selection : SampleKey) : List Byte :=
  encodeSigned (Item.array [.unsigned 2, .unsigned 2, .unsigned 1, .bytes (List.replicate 16 2),
    .text "age1phone1qypkk9737tsjcsj8lz7wdetr53q0yacr0kqjm6en5r62zw29mzvv99sa27n9c",
    .bytes (compressX963 (sampleX963 .phoneSigning)),
    .bytes (bigEndian 32 (sampleOfferDigest selection)),
    .bytes (List.replicate 32 8)]).encode (sampleResponseSignature selection)

private def sampleHandleInput (selection : SampleKey) : List Byte :=
  managementDomain ++ [0] ++ List.replicate 16 2 ++ List.replicate 16 1 ++
    bigEndian 32 (sampleFingerprint selection)

/-- The digests of the sample pairing, by their inputs. -/
private def sampleDigests : List (List Byte × ℕ) :=
  [SampleKey.desktopSelection, .phoneSigning].flatMap (fun selection =>
    [(domainInput offerDigestDomain (sampleOffer selection), sampleOfferDigest selection),
      (domainInput fingerprintDomain (sampleOffer selection ++ sampleResponse selection),
        sampleFingerprint selection),
      (sampleHandleInput selection, if selection = .phoneSigning then
          0x5cd30470a9b2570e503913f594dc36fbd82307cc61fcc3be2592eea829b1c002
        else 0x1c84801d7ee84f0f32b31a64428df8f9568a9a856a448bf4c7d8b15e4abc458d)]) ++
  [(stateDomain ++ [0] ++ List.replicate 16 1 ++ List.replicate 16 2,
    0x0892d89c8887bb92a2646e8127cffb22f1d13577cab2fbe26e491b33abb90d26)]

private def sampleSha256 (input : List Byte) : Digest :=
  ⟨bigEndian 32 (((sampleDigests.find? fun entry => entry.1 = input).map Prod.snd).getD 0),
    bigEndian_length _ _⟩

/-- A CryptoKit that agrees with the real one on the four sample keys, the desktop's signatures of
the two sample offers and the digests of the sample pairing. -/
def sampleCryptoKit : CryptoKit where
  PublicKey := SampleKey
  x963Representation := sampleX963
  fromCompressed := sampleFromCompressed
  fromCompressed_compressed key := by cases key <;> decide +kernel
  compressed_fromCompressed bytes key h := by
    simpa using List.find?_some (show List.find? _ _ = some key from h)
  isValidSignature key message signature :=
    key = .desktopSigning && [SampleKey.desktopSelection, .phoneSigning].any fun selection =>
      message = domainInput offerSignatureDomain (sampleOfferPayload selection) &&
        signature.1 = sampleOfferSignature selection
  sha256 := sampleSha256

def sampleIdentityKey : sampleCryptoKit.PublicKey := SampleKey.identity

def samplePhoneSigningKey : sampleCryptoKit.PublicKey := SampleKey.phoneSigning

/-- The sample offer, the phone's identity and its response. -/
def samplePairing (selection : SampleKey) : Except Failure (VerifiedPairingOffer sampleCryptoKit ×
    IdentityPublicMetadata × VerifiedPairingResponse sampleCryptoKit) := do
  let offer ← verifyPairingOffer sampleCryptoKit (sampleOffer selection)
  let identity ← okOr (committedMetadata sampleCryptoKit (Bytes.replicate 16 2)
    sampleIdentityKey samplePhoneSigningKey) .trap
  let response ← createPairingResponse sampleCryptoKit offer identity samplePhoneSigningKey
    (Bytes.replicate 32 8) fun _ => sampleResponseSignature selection
  return (offer, identity, response)

theorem sample_pairing_readable : ∃ offer identity response,
    samplePairing .desktopSelection = .ok (offer, identity, response) ∧
      StaysReadable sampleCryptoKit (pairingRecord sampleCryptoKit offer response) 1000
        identity.identityPublicKey (create sampleCryptoKit offer response 1000 ∅ []).store := by
  obtain ⟨_, hrun⟩ := exists_of_isOk (x := do
    let (offer, _, response) ← samplePairing .desktopSelection
    ensure (OffersNoPhoneKey offer sampleIdentityKey samplePhoneSigningKey) Failure.trap
    (create sampleCryptoKit offer response 1000 ∅ []).value.mapError fun _ => Failure.trap)
    (by decide +kernel)
  obtain ⟨⟨offer, identity, response⟩, hpairing, hrun⟩ := bind_eq_ok.mp hrun
  obtain ⟨_, hkeys, hcreate⟩ := bind_eq_ok.mp hrun
  refine ⟨offer, identity, response, hpairing, ?_⟩
  obtain ⟨_, hoffer, hpairing⟩ := bind_eq_ok.mp hpairing
  obtain ⟨_, hidentity, hpairing⟩ := bind_eq_ok.mp hpairing
  obtain ⟨_, hresponse, hpairing⟩ := bind_eq_ok.mp hpairing
  simp only [pure_eq_ok, Except.ok.injEq, Prod.mk.injEq] at hpairing
  obtain ⟨rfl, rfl, rfl⟩ := hpairing
  obtain ⟨found, hfound⟩ := ok_of_mapError_eq_ok hcreate
  exact (created_pairing_readable_iff hoffer (okOr_eq_ok.mp hidentity) hresponse 1000 ∅ [] found
    hfound).mpr (ensure_eq_ok.mp hkeys)

/-- An offer of the phone's signing key as the selection key is stored and fails every listing. -/
theorem stored_pairing_unreadable :
    (samplePairing .phoneSigning).map (fun (offer, identity, response) =>
      ((create sampleCryptoKit offer response 1000 ∅ []).value.isOk,
        summaries sampleCryptoKit (create sampleCryptoKit offer response 1000 ∅ []).store
          identity.identityId)) =
      .ok (true, .error (.store .malformed)) := by
  decide +kernel

end Sample

end AgePluginPhone.Ios
