import AgePluginPhone.Android.PairingReplay

/-!
# Identity deletion on Android

Where no scope has both a state file and a pending-deletion file, a deletion of an identity that
meets no fault removes every file of that identity and no other. Every run keeps the directory
so, unless a creation starts a scope whose previous deletion is still pending.
-/

namespace AgePluginPhone.Android

open Library Cbor StorageM

variable (p : Platform) (created : Set StoredPairingRecord)

/-- A state of the named file, of a pairing from the given set. -/
structure Stored (n : Digest) (s : State) : Prop where
  wellFormed : s.WellFormed p
  file : s.record.file p = n
  created : s.record ∈ created

/-- Every pairing file is readable and no scope has two. -/
abbrev Directory : Files → Prop := FilesInvariant (Stored p created) (Stored p created) True

/-- Management handles of the given pairings do not collide. -/
def HandlesDistinct : Prop := Set.InjOn p.sha256 (handleInput '' created)

/-- The file name of a scope and its deletion suffix. -/
def fileName (key : Digest × Bool) : FileName := if key.2 then .deleting key.1 else .live key.1

structure Holds (files : Files) (key : Digest × Bool) (s : State) : Prop where
  lookup : files.lookup (fileName key) = some (encode s)
  stored : Stored p created key.1 s

/-- The file is a pairing of the identity, pending deletion or not. -/
def Owned (files : Files) (identityId : Bytes 16) (name : FileName) : Prop :=
  ∃ key content s, fileName key = name ∧ files.lookup name = some content ∧
    decode p content = .ok s ∧ s.record.identityId = identityId

section Listing

variable {p created} {files : Files} {identityId : Bytes 16}

theorem FileName.pairing_eq_some {name : FileName} {key : Digest × Bool} :
    name.pairing = some key ↔ name = fileName key := by
  obtain ⟨n, pending⟩ := key
  cases name <;> cases pending <;> simp [FileName.pairing, fileName]

theorem mem_pairingFiles {key : Digest × Bool} {content : List Byte} :
    (key, content) ∈ pairingFiles files ↔ files.lookup (fileName key) = some content := by
  rw [← Option.mem_def, AList.mem_lookup_iff]
  simp only [pairingFiles, List.mem_filterMap, Option.map_eq_some_iff, FileName.pairing_eq_some]
  constructor
  · rintro ⟨⟨name, c⟩, hmem, found, rfl, heq⟩
    obtain ⟨rfl, rfl⟩ := Prod.mk.inj heq
    exact hmem
  · exact fun hmem => ⟨_, hmem, key, rfl, rfl⟩

theorem pairingFiles_nodup (files : Files) : (pairingFiles files).Nodup := by
  refine List.Nodup.filterMap ?_ files.nodupKeys.nodup
  rintro ⟨name, content⟩ ⟨name', content'⟩ found h h'
  simp only [Option.mem_def, Option.map_eq_some_iff, FileName.pairing_eq_some] at h h'
  obtain ⟨key, rfl, rfl⟩ := h
  obtain ⟨key', rfl, heq⟩ := h'
  obtain ⟨rfl, rfl⟩ := Prod.mk.inj heq
  rfl

theorem Directory.holds (h : Directory p created files) {key : Digest × Bool}
    {content : List Byte} (hfile : (key, content) ∈ pairingFiles files) :
    ∃ s, Holds p created files key s ∧ content = encode s ∧ content.length ≤ maxStateBytes := by
  have hlookup := mem_pairingFiles.mp hfile
  obtain ⟨n, pending⟩ := key
  cases pending with
  | false =>
      obtain ⟨s, hs, rfl, hsize⟩ := h.live n content hlookup
      exact ⟨s, ⟨hlookup, hs⟩, rfl, hsize⟩
  | true =>
      obtain ⟨s, hs, rfl, hsize⟩ := h.deleting n content hlookup
      exact ⟨s, ⟨hlookup, hs⟩, rfl, hsize⟩

theorem Holds.mem {key : Digest × Bool} {s : State} (h : Holds p created files key s) :
    (key, encode s) ∈ pairingFiles files :=
  mem_pairingFiles.mpr h.lookup

private theorem handleInput_injective {r r' : StoredPairingRecord}
    (h : handleInput r = handleInput r') :
    r.identityId = r'.identityId ∧ r.desktopId = r'.desktopId := by
  simp only [handleInput, List.append_assoc] at h
  have hid := List.append_inj (List.append_cancel_left (List.append_cancel_left h))
    (r.identityId.2.trans r'.identityId.2.symm)
  have hdesktop := List.append_inj hid.2 (r.desktopId.2.trans r'.desktopId.2.symm)
  exact ⟨Subtype.ext hid.1, Subtype.ext hdesktop.1⟩

/-- Two files of one handle have one name. -/
theorem Holds.unique (h : Directory p created files) (hdistinct : HandlesDistinct p created)
    {key key' : Digest × Bool} {s s' : State} (hs : Holds p created files key s)
    (hs' : Holds p created files key' s')
    (hhandle : managementHandle p s.record = managementHandle p s'.record) : key = key' := by
  have hinput : handleInput s.record = handleInput s'.record :=
    hdistinct ⟨_, hs.stored.created, rfl⟩ ⟨_, hs'.stored.created, rfl⟩ hhandle
  obtain ⟨hidentity, hdesktop⟩ := handleInput_injective hinput
  have hscope : key.1 = key'.1 := by
    rw [← hs.stored.file, ← hs'.stored.file, StoredPairingRecord.file, StoredPairingRecord.file,
      hidentity, hdesktop]
  have hlookup := hs.lookup
  have hlookup' := hs'.lookup
  obtain ⟨n, pending⟩ := key
  obtain ⟨n', pending'⟩ := key'
  obtain rfl : n = n' := hscope
  have hseparate := h.separate trivial n
  cases pending <;> cases pending' <;> simp_all [fileName]

private theorem readPairing_holds {key : Digest × Bool} {s : State}
    (h : Holds p created files key s) (hsize : (encode s).length ≤ maxStateBytes) :
    readPairing p (key, encode s) = .ok (s.record, key.2) := by
  simp [readPairing, readState_encode h.stored.wellFormed hsize, h.stored.file, ensure_true]

/-- The states the files hold, one for each name. -/
private theorem Directory.states (h : Directory p created files) :
    ∃ state : Digest × Bool → State, ∀ file ∈ pairingFiles files,
      file = (file.1, encode (state file.1)) ∧ Holds p created files file.1 (state file.1) ∧
        (encode (state file.1)).length ≤ maxStateBytes := by
  have : Nonempty State := ⟨initialState sampleRecord ⟨0, by decide⟩ 1⟩
  have hstate : ∀ key, ∃ s, ∀ content, (key, content) ∈ pairingFiles files →
      content = encode s ∧ Holds p created files key s ∧ (encode s).length ≤ maxStateBytes := by
    intro key
    by_cases hkey : ∃ content, (key, content) ∈ pairingFiles files
    · obtain ⟨content, hfile⟩ := hkey
      obtain ⟨s, hs, rfl, hsize⟩ := h.holds hfile
      refine ⟨s, fun other hother => ?_⟩
      have heq := (mem_pairingFiles.mp hother).symm.trans (mem_pairingFiles.mp hfile)
      exact ⟨Option.some.inj heq, hs, hsize⟩
    · exact ⟨Classical.arbitrary State, fun content hfile => absurd ⟨content, hfile⟩ hkey⟩
  choose state hstate using hstate
  refine ⟨state, ?_⟩
  rintro ⟨key, content⟩ hfile
  obtain ⟨rfl, hs, hsize⟩ := hstate key content hfile
  exact ⟨rfl, hs, hsize⟩

/-- The listing names each pairing file of the identity once. -/
theorem listAt_complete (h : Directory p created files) (hdistinct : HandlesDistinct p created)
    (identityId : Bytes 16) : ∃ summaries, listAt p files identityId = .ok summaries ∧
      summaries.Nodup ∧ ∀ item, item ∈ summaries ↔ ∃ key s, Holds p created files key s ∧
        s.record.identityId = identityId ∧ item = summary p (s.record, key.2) := by
  obtain ⟨state, hstate⟩ := h.states
  have hread : (pairingFiles files).mapM (readPairing p) =
      .ok ((pairingFiles files).map fun file => ((state file.1).record, file.1.2)) := by
    refine mapM_eq_ok fun file hfile => ?_
    obtain ⟨heq, hs, hsize⟩ := hstate file hfile
    rw [heq]
    exact readPairing_holds hs hsize
  obtain ⟨summaries, hlist, hperm⟩ : ∃ summaries, listAt p files identityId = .ok summaries ∧
      summaries.Perm ((((pairingFiles files).map fun file =>
        ((state file.1).record, file.1.2)).filter
          fun pairing => pairing.1.identityId = identityId).map (summary p)) := by
    simp only [listAt, hread, ok_bind, pure_eq_ok]
    exact ⟨_, rfl, List.perm_insertionSort _ _⟩
  refine ⟨summaries, hlist, ?_, ?_⟩
  · rw [hperm.nodup_iff, List.filter_map, List.map_map]
    refine List.Nodup.map_on ?_ ((pairingFiles_nodup files).filter _)
    intro file hfile file' hfile' heq
    obtain ⟨hcontent, hs, -⟩ := hstate file (List.mem_filter.mp hfile).1
    obtain ⟨hcontent', hs', -⟩ := hstate file' (List.mem_filter.mp hfile').1
    have hkey : file.1 = file'.1 := hs.unique h hdistinct hs' (congrArg Summary.handle heq)
    rw [hcontent, hcontent', hkey]
  · intro item
    rw [hperm.mem_iff]
    simp only [List.mem_map, List.mem_filter, decide_eq_true_eq]
    constructor
    · rintro ⟨pairing, ⟨⟨file, hfile, rfl⟩, hidentity⟩, rfl⟩
      exact ⟨file.1, _, (hstate file hfile).2.1, hidentity, rfl⟩
    · rintro ⟨key, s, hs, hidentity, rfl⟩
      obtain ⟨heq, hs', -⟩ := hstate _ hs.mem
      obtain rfl : s = state key := by
        have hencode : encode s = encode (state key) := congrArg Prod.snd heq
        exact encode_injective hs.stored.wellFormed hs'.stored.wellFormed hencode
      exact ⟨_, ⟨⟨_, hs.mem, rfl⟩, hidentity⟩, rfl⟩

private theorem filter_eq_singleton {α : Type} {items : List α} {a : α} {P : α → Bool}
    (hnodup : items.Nodup) (ha : a ∈ items) (hp : P a) (hunique : ∀ b ∈ items, P b → b = a) :
    items.filter P = [a] := by
  refine List.perm_singleton.mp ((List.perm_ext_iff_of_nodup (hnodup.filter _)
    (List.nodup_singleton a)).mpr fun b => ?_)
  simp only [List.mem_filter, List.mem_singleton]
  constructor
  · exact fun hb => hunique b hb.1 hb.2
  · rintro rfl
    exact ⟨ha, hp⟩

/-- A pairing's handle selects its summary and its record. -/
theorem findRecordAt_complete (h : Directory p created files)
    (hdistinct : HandlesDistinct p created) {key : Digest × Bool} {s : State}
    (hs : Holds p created files key s) :
    findRecordAt p files s.record.identityId (managementHandle p s.record) key.2 =
      .ok s.record := by
  obtain ⟨state, hstate⟩ := h.states
  obtain ⟨heq, hs', -⟩ := hstate _ hs.mem
  have hkey : state key = s :=
    (encode_injective hs.stored.wellFormed hs'.stored.wellFormed (congrArg Prod.snd heq)).symm
  have hdecode : ((pairingFiles files).filter fun file => file.1.2 = key.2).mapM
      (fun file => decode p file.2) =
      .ok (((pairingFiles files).filter fun file => file.1.2 = key.2).map
        fun file => state file.1) := by
    refine mapM_eq_ok fun file hfile => ?_
    obtain ⟨heq, hs, -⟩ := hstate file (List.mem_filter.mp hfile).1
    rw [congrArg Prod.snd heq]
    exact decode_encode hs.stored.wellFormed
  have hsingle : ((pairingFiles files).filter fun file => file.1.2 = key.2).filter
      (fun file => (state file.1).record.identityId = s.record.identityId &&
        managementHandle p (state file.1).record = managementHandle p s.record) =
      [(key, encode s)] := by
    refine filter_eq_singleton ((pairingFiles_nodup files).filter _) ?_ ?_ ?_
    · exact List.mem_filter.mpr ⟨hs.mem, by simp⟩
    · simp [hkey]
    · intro file hfile hmatch
      simp only [Bool.and_eq_true, decide_eq_true_eq] at hmatch
      obtain ⟨hcontent, hs₁, -⟩ := hstate file (List.mem_filter.mp hfile).1
      have hname : file.1 = key := hs₁.unique h hdistinct hs hmatch.2
      rw [hcontent, hname, hkey]
  simp only [findRecordAt, hdecode, ok_bind, List.map_map, List.filter_map, Function.comp_def]
  rw [hsingle]
  simp [singleOrNull, hkey]

theorem singleOrNull_summary {summaries : List Summary} (h : Directory p created files)
    (hdistinct : HandlesDistinct p created) (hnodup : summaries.Nodup)
    (hmem : ∀ item, item ∈ summaries ↔ ∃ key s, Holds p created files key s ∧
      s.record.identityId = identityId ∧ item = summary p (s.record, key.2))
    {key : Digest × Bool} {s : State} (hs : Holds p created files key s)
    (hidentity : s.record.identityId = identityId) :
    singleOrNull (summaries.filter (·.handle = managementHandle p s.record)) =
      some (summary p (s.record, key.2)) := by
  have hsingle : summaries.filter (·.handle = managementHandle p s.record) =
      [summary p (s.record, key.2)] := by
    refine filter_eq_singleton hnodup ((hmem _).mpr ⟨key, s, hs, hidentity, rfl⟩) ?_ ?_
    · simp [summary]
    · intro item hitem hhandle
      obtain ⟨key', s', hs', -, rfl⟩ := (hmem item).mp hitem
      have hhandle' : managementHandle p s'.record = managementHandle p s.record :=
        of_decide_eq_true hhandle
      have hname : key' = key := hs'.unique h hdistinct hs hhandle'
      simp only [summary, hhandle', hname]
  rw [hsingle]
  rfl

end Listing

section Removal

variable {p created} {w w' : World}

/-- The directory of a process that has no store open. -/
structure Ready (p : Platform) (created : Set StoredPairingRecord) (w : World) : Prop where
  directory : Directory p created w.files
  closed : ∀ n, w.opened.lookup n = none

/-- The one file is gone, the others are as they were, and no store is open. -/
structure Removed (name : FileName) (w w' : World) : Prop where
  files : ∀ other, w'.files.lookup other = if other = name then none else w.files.lookup other
  closed : ∀ n, w'.opened.lookup n = none

theorem Removed.lookup {name other : FileName} {content : List Byte} (h : Removed name w w')
    (hother : w'.files.lookup other = some content) :
    other ≠ name ∧ w.files.lookup other = some content := by
  rw [h.files] at hother
  split_ifs at hother with heq
  exact ⟨heq, hother⟩

theorem Removed.ready {name : FileName} (h : Removed name w w') (hw : Ready p created w) :
    Ready p created w' := by
  refine ⟨⟨?_, ?_, ?_⟩, h.closed⟩
  · exact fun n content hn => hw.directory.live n content (h.lookup hn).2
  · exact fun n content hn => hw.directory.deleting n content (h.lookup hn).2
  · intro htrivial n hlive
    obtain ⟨content, hcontent⟩ := Option.ne_none_iff_exists'.mp hlive
    have hfree := hw.directory.separate htrivial n (by simp [(h.lookup hcontent).2])
    rw [h.files]
    split_ifs
    · rfl
    · exact hfree

private theorem openAt_apply {n : Digest} {s : State} (hn : s.record.file p = n)
    (hs : s.WellFormed p) (hsize : (encode s).length ≤ maxStateBytes)
    (hfile : w.files.lookup (.live n) = some (encode s)) (hclosed : w.opened.lookup n = none) :
    openAt p s.record.desktopId s.record.identityId w [] =
      ⟨.ok s, { w with opened := w.opened.insert n ⟨s, false⟩ }, []⟩ := by
  have hscope : stateFile p s.record.desktopId s.record.identityId = n := hn
  subst hscope
  have hunlocked := ensure_true Category.locked hclosed
  have hread := readState_encode hs hsize
  simp [openAt, requireUnlocked, register, bind_apply, hunlocked, hfile, hread, ensure_true]

private theorem revokeState_apply {n : Digest} {s : State} {content : List Byte}
    (hopen : w.opened.lookup n = some ⟨s, false⟩)
    (hlive : w.files.lookup (.live n) = some content)
    (hdeleting : w.files.lookup (.deleting n) = none) :
    revokeState n w [] = ⟨.ok (), ⟨((w.files.erase (.live n)).insert (.deleting n) content).erase
      (.deleting n), w.opened.insert n ⟨s, true⟩⟩, []⟩ := by
  have husable : usableStore w n = .ok ⟨s, false⟩ := by simp [usableStore, hopen, ensure]
  have hfree := ensure_true Category.deletionPending hdeleting
  simp [revokeState, bind_apply, husable, recover, hfree, replaceFile, deleteFile, settle, effect,
    hlive, World.updateStore, World.setFiles, hopen]

private theorem lookup_erase (files : Files) (name other : FileName) :
    (files.erase name).lookup other = if other = name then none else files.lookup other := by
  split_ifs with hname
  · subst hname
    exact AList.lookup_erase other files
  · exact AList.lookup_erase_ne hname

private theorem lookup_revoked {files : Files} {n : Digest} {content : List Byte}
    (hdeleting : files.lookup (.deleting n) = none) (other : FileName) :
    (((files.erase (.live n)).insert (.deleting n) content).erase (.deleting n)).lookup other =
      if other = .live n then none else files.lookup other := by
  by_cases hpending : other = .deleting n
  · subst hpending
    simp [hdeleting]
  · rw [AList.lookup_erase_ne hpending, AList.lookup_insert_ne hpending]
    exact lookup_erase files (.live n) other

/-- Revoking a live pairing removes its state file. -/
theorem revokeAt_live {n : Digest} {s : State} (hw : Ready p created w)
    (hdistinct : HandlesDistinct p created) (hs : Holds p created w.files (n, false) s) :
    ∃ w', revokeAt p s.record.identityId (managementHandle p s.record) w [] = ⟨.ok (), w', []⟩ ∧
      Removed (.live n) w w' := by
  obtain ⟨summaries, hlist, hnodup, hmem⟩ :=
    listAt_complete hw.directory hdistinct s.record.identityId
  have hsummary := singleOrNull_summary hw.directory hdistinct hnodup hmem hs rfl
  have hrecord := findRecordAt_complete hw.directory hdistinct hs
  have hfile : w.files.lookup (.live n) = some (encode s) := hs.lookup
  have hdeleting := hw.directory.separate trivial n (by simp [hfile])
  obtain ⟨t, ht, heq, hsize⟩ := hw.directory.live n _ hfile
  have hopen := openAt_apply hs.stored.file hs.stored.wellFormed hsize hfile (hw.closed n)
  have hrevoke : revokeState n { w with opened := w.opened.insert n ⟨s, false⟩ } [] = _ :=
    revokeState_apply (AList.lookup_insert w.opened) hfile hdeleting
  refine ⟨⟨((w.files.erase (.live n)).insert (.deleting n) (encode s)).erase (.deleting n),
    ((w.opened.insert n ⟨s, false⟩).insert n ⟨s, true⟩).erase n⟩, ?_, ?_, ?_⟩
  · have hscope := hs.stored.file
    simp [revokeAt, bind_apply, hlist, hsummary, summary, hrecord, hopen, recover, ensure_true,
      hscope, hrevoke, close]
  · exact lookup_revoked hdeleting
  · intro m
    by_cases hm : m = n
    · subst hm
      simp
    · simpa [AList.lookup_erase_ne hm, AList.lookup_insert_ne hm] using hw.closed m

/-- Completing a pending deletion removes the renamed file. -/
private theorem deletePending_apply {n : Digest} {s : State} (hw : Ready p created w)
    (hdistinct : HandlesDistinct p created) (hs : Holds p created w.files (n, true) s) :
    ∃ w', (do
        let record ← check (findRecordAt p (← load).files s.record.identityId
          (managementHandle p s.record) true)
        deleteFile (.deleting (record.file p)) : Io Unit) w [] = ⟨.ok (), w', []⟩ ∧
      Removed (.deleting n) w w' := by
  have hrecord := findRecordAt_complete hw.directory hdistinct hs
  have hscope := hs.stored.file
  refine ⟨w.setFiles (w.files.erase (.deleting n)), ?_, lookup_erase _ _, hw.closed⟩
  simp [bind_apply, hrecord, hscope, deleteFile, effect]

/-- How far a deletion loop over the live or over the pending files has come: the items left are
the files left, and only files of the identity are gone. -/
structure Remaining (p : Platform) (created : Set StoredPairingRecord) (w₀ : World)
    (identityId : Bytes 16) (pending : Bool) (items : List Summary) (w : World) : Prop where
  ready : Ready p created w
  shrunk : ∀ name, w.files.lookup name = w₀.files.lookup name ∨
    Owned p w₀.files identityId name ∧ w.files.lookup name = none
  cleared : pending → ∀ n s, Holds p created w.files (n, false) s →
    s.record.identityId ≠ identityId
  present : ∀ item ∈ items, ∃ n s, Holds p created w.files (n, pending) s ∧
    s.record.identityId = identityId ∧ item.handle = managementHandle p s.record
  covers : ∀ n s, Holds p created w.files (n, pending) s → s.record.identityId = identityId →
    managementHandle p s.record ∈ items.map Summary.handle
  nodup : (items.map Summary.handle).Nodup

private theorem Removed.holds {name : FileName} {key : Digest × Bool} {s : State}
    (h : Removed name w w') (hs : Holds p created w'.files key s) :
    fileName key ≠ name ∧ Holds p created w.files key s :=
  ⟨(h.lookup hs.lookup).1, (h.lookup hs.lookup).2, hs.stored⟩

private theorem Removed.keep {name : FileName} {key : Digest × Bool} {s : State}
    (h : Removed name w w') (hs : Holds p created w.files key s) (hne : fileName key ≠ name) :
    Holds p created w'.files key s :=
  ⟨by rw [h.files, if_neg hne, hs.lookup], hs.stored⟩

theorem Remaining.next {w₀ : World} {identityId : Bytes 16} {pending : Bool} {item : Summary}
    {items : List Summary} {n : Digest} {s : State}
    (h : Remaining p created w₀ identityId pending (item :: items) w)
    (hdistinct : HandlesDistinct p created) (hs : Holds p created w.files (n, pending) s)
    (hidentity : s.record.identityId = identityId)
    (hhandle : item.handle = managementHandle p s.record)
    (hremoved : Removed (fileName (n, pending)) w w') :
    Remaining p created w₀ identityId pending items w' := by
  obtain ⟨hfresh, hnodup⟩ := List.nodup_cons.mp h.nodup
  refine ⟨hremoved.ready h.ready, ?_, ?_, ?_, ?_, hnodup⟩
  · intro name
    rw [hremoved.files]
    split_ifs with hname
    · subst hname
      refine Or.inr ⟨?_, rfl⟩
      rcases h.shrunk (fileName (n, pending)) with hsame | ⟨howned, -⟩
      · exact ⟨_, _, s, rfl, hsame.symm.trans hs.lookup, decode_encode hs.stored.wellFormed,
          hidentity⟩
      · exact howned
    · exact h.shrunk name
  · exact fun hpending m t ht => h.cleared hpending m t (hremoved.holds ht).2
  · intro other hother
    obtain ⟨m, t, ht, htid, hthandle⟩ := h.present other (List.mem_cons_of_mem _ hother)
    refine ⟨m, t, hremoved.keep ht fun hname => ?_, htid, hthandle⟩
    have hlookup := ht.lookup
    rw [hname, hs.lookup] at hlookup
    obtain rfl := encode_injective hs.stored.wellFormed ht.stored.wellFormed
      (Option.some.inj hlookup)
    refine hfresh (List.mem_map.mpr ⟨other, hother, ?_⟩)
    rw [hthandle, hhandle]
  · intro m t ht htid
    obtain ⟨hne, hold⟩ := hremoved.holds ht
    rcases List.mem_cons.mp (h.covers m t hold htid) with heq | hmem
    · have hkey := hold.unique h.ready.directory hdistinct hs (heq.trans hhandle)
      exact absurd (congrArg fileName hkey) hne
    · exact hmem

theorem Remaining.of_listing {w₀ : World} {identityId : Bytes 16} {summaries : List Summary}
    (pending : Bool) (hw : Ready p created w)
    (hshrunk : ∀ name, w.files.lookup name = w₀.files.lookup name ∨
      Owned p w₀.files identityId name ∧ w.files.lookup name = none)
    (hcleared : pending → ∀ n s, Holds p created w.files (n, false) s →
      s.record.identityId ≠ identityId)
    (hnodup : summaries.Nodup)
    (hmem : ∀ item, item ∈ summaries ↔ ∃ key s, Holds p created w.files key s ∧
      s.record.identityId = identityId ∧ item = summary p (s.record, key.2)) :
    Remaining p created w₀ identityId pending
      (summaries.filter fun item => item.deletionPending = pending) w := by
  refine ⟨hw, hshrunk, hcleared, ?_, ?_, ?_⟩
  · intro item hitem
    obtain ⟨hitem, hpending⟩ := List.mem_filter.mp hitem
    obtain ⟨⟨n, found⟩, s, hs, hidentity, rfl⟩ := (hmem item).mp hitem
    obtain rfl : found = pending := of_decide_eq_true hpending
    exact ⟨n, s, hs, hidentity, rfl⟩
  · intro n s hs hidentity
    refine List.mem_map.mpr ⟨summary p (s.record, pending), List.mem_filter.mpr ⟨?_, ?_⟩, rfl⟩
    · exact (hmem _).mpr ⟨_, s, hs, hidentity, rfl⟩
    · simp [summary]
  · refine List.Nodup.map_on ?_ (hnodup.filter _)
    rintro ⟨handle, found⟩ hitem ⟨handle', found'⟩ hitem' (rfl : handle = handle')
    have hfound : found = pending := of_decide_eq_true (List.mem_filter.mp hitem).2
    have hfound' : found' = pending := of_decide_eq_true (List.mem_filter.mp hitem').2
    rw [hfound, hfound']

private theorem revokeLive_completes {w₀ : World} {identityId : Bytes 16} {items : List Summary}
    (hdistinct : HandlesDistinct p created) :
    Completes (Remaining p created w₀ identityId false items)
      (items.forM fun item => revokeAt p identityId item.handle)
      fun _ => Remaining p created w₀ identityId false [] := by
  refine Completes.forM fun item rest w hw => ?_
  obtain ⟨n, s, hs, hidentity, hhandle⟩ := hw.present item List.mem_cons_self
  obtain ⟨w', hrun, hremoved⟩ := revokeAt_live hw.ready hdistinct hs
  rw [hidentity, ← hhandle] at hrun
  exact ⟨(), w', hrun, hw.next hdistinct hs hidentity hhandle hremoved⟩

private theorem deletePending_completes {w₀ : World} {identityId : Bytes 16}
    {items : List Summary} (hdistinct : HandlesDistinct p created) :
    Completes (Remaining p created w₀ identityId true items)
      (items.forM fun item => do
        let record ← check (findRecordAt p (← load).files identityId item.handle true)
        deleteFile (.deleting (record.file p)))
      fun _ => Remaining p created w₀ identityId true [] := by
  refine Completes.forM fun item rest w hw => ?_
  obtain ⟨n, s, hs, hidentity, hhandle⟩ := hw.present item List.mem_cons_self
  obtain ⟨w', hrun, hremoved⟩ := deletePending_apply hw.ready hdistinct hs
  rw [hidentity, ← hhandle] at hrun
  exact ⟨(), w', hrun, hw.next hdistinct hs hidentity hhandle hremoved⟩

/-- From a directory without a doubly stored scope, `revokeAll` removes the identity's files. -/
theorem revokeAll_completes {w₀ : World} (hw : Ready p created w₀)
    (hdistinct : HandlesDistinct p created) (identityId : Bytes 16) :
    ∃ w', revokeAll p identityId w₀ [] = ⟨.ok (), w', []⟩ ∧
      (∀ name, Owned p w₀.files identityId name → w'.files.lookup name = none) ∧
      ∀ name, ¬ Owned p w₀.files identityId name →
        w'.files.lookup name = w₀.files.lookup name := by
  obtain ⟨live, hlist, hnodup, hmem⟩ := listAt_complete hw.directory hdistinct identityId
  have hstart : Remaining p created w₀ identityId false _ w₀ :=
    Remaining.of_listing false hw (fun _ => Or.inl rfl) (fun h => absurd h (by simp)) hnodup hmem
  obtain ⟨_, w₁, hlive, hdone⟩ := revokeLive_completes hdistinct w₀ hstart
  have hcleared : ∀ n s, Holds p created w₁.files (n, false) s → s.record.identityId ≠ identityId :=
    fun n s hs hidentity => absurd (hdone.covers n s hs hidentity) (by simp)
  obtain ⟨pending, hlist', hnodup', hmem'⟩ :=
    listAt_complete hdone.ready.directory hdistinct identityId
  have hpending : Remaining p created w₀ identityId true _ w₁ :=
    Remaining.of_listing true hdone.ready hdone.shrunk (fun _ => hcleared) hnodup' hmem'
  obtain ⟨_, w₂, hdelete, hend⟩ := deletePending_completes hdistinct w₁ hpending
  refine ⟨w₂, ?_, ?_, ?_⟩
  · have hnotPending : (live.filter fun item => ¬ item.deletionPending) =
        live.filter fun item => item.deletionPending = false := by simp
    have hisPending : pending.filter (·.deletionPending) =
        pending.filter fun item => item.deletionPending = true := by simp
    rw [← hnotPending] at hlive
    rw [← hisPending] at hdelete
    have hsettle : (if pending.filter (·.deletionPending) ≠ [] then settle else pure ()) w₂ [] =
        ⟨.ok (), w₂, []⟩ := by split_ifs <;> rfl
    rw [revokeAll, bind_ok (load_apply w₀ []), hlist]
    refine (bind_ok (check_apply_ok rfl)).trans ((bind_ok hlive).trans ?_)
    rw [cleanupPendingAt, bind_ok (load_apply w₁ []), hlist']
    exact (bind_ok (check_apply_ok rfl)).trans ((bind_ok hdelete).trans hsettle)
  · rintro name ⟨key, content, s, rfl, hlookup, hdecode, hidentity⟩
    rcases hend.shrunk (fileName key) with hsame | ⟨-, hgone⟩
    · obtain ⟨t, ht, rfl, -⟩ := hend.ready.directory.holds
        (mem_pairingFiles.mpr (hsame.trans hlookup))
      obtain rfl : t = s := by
        rw [decode_encode ht.stored.wellFormed] at hdecode
        exact Except.ok.inj hdecode
      obtain ⟨n, pending⟩ := key
      cases pending with
      | false => exact absurd hidentity (hend.cleared rfl n t ht)
      | true => exact absurd (hend.covers n t ht hidentity) (by simp)
    · exact hgone
  · intro name hother
    rcases hend.shrunk name with hsame | ⟨howned, -⟩
    · exact hsame
    · exact absurd howned hother

end Removal

section Runs

/-- No creation starts a scope whose previous deletion is pending. -/
def NoPendingScope (_history : List VerifiedRequest) (w : World) (e : Event) : Prop :=
  match e.call with
  | .createAt record nowUnix capacity =>
      Starts p record nowUnix capacity w → w.files.lookup (.deleting (record.file p)) = none
  | _ => True

instance (history : List VerifiedRequest) (w : World) :
    ∀ e : Event, Decidable (NoPendingScope p history w e)
  | ⟨.createAt record nowUnix capacity, _⟩ => inferInstanceAs (Decidable
      (Starts p record nowUnix capacity w → w.files.lookup (.deleting (record.file p)) = none))
  | ⟨.openAt _ _, _⟩ | ⟨.consumeRequest _ _ _, _⟩ | ⟨.close _, _⟩ | ⟨.revokeAt _ _, _⟩
  | ⟨.revokeAll _, _⟩ => isTrue trivial

/-- The pairings a run asks to create. -/
def createdRecords (events : List Event) : Set StoredPairingRecord :=
  {record | ∃ nowUnix capacity, ∃ e ∈ events, e.call = .createAt record nowUnix capacity}

variable {p} {created}

theorem stored_step {w w' : World} {e : Event} {history : List VerifiedRequest}
    (hallowed : NoPendingScope p history w e)
    (hcreated : ∀ record nowUnix capacity, e.call = .createAt record nowUnix capacity →
      record ∈ created)
    (hw : Invariant (Stored p created) (Stored p created) True w)
    (hstep : w.step p e = some w') : Invariant (Stored p created) (Stored p created) True w' := by
  obtain rfl := Option.some.inj hstep
  refine step_invariant (fun _ _ hs => hs.wellFormed) (fun _ _ hs => hs) ?_ ?_ hw
  · intro n s next request nowUnix hs hnext
    obtain ⟨hwell, hrecord⟩ := State.consume_wellFormed hs.wellFormed hnext
    exact ⟨hwell, hrecord ▸ hs.file, hrecord ▸ hs.created⟩
  · intro record nowUnix capacity hcall hstarts
    obtain ⟨call, faults⟩ := e
    obtain rfl : call = .createAt record nowUnix capacity := hcall
    exact ⟨fun _ => hallowed hstarts, initialState_wellFormed hstarts, rfl,
      hcreated record nowUnix capacity rfl⟩

/-- After every run that starts no scope while its previous deletion is pending, whatever faults
and stops the run met, a deletion of the identity without faults completes and removes the files
of that identity and no other. -/
theorem identity_deletion_completes (events : List Event) (w : World)
    (hallowed : Machine.Admissible (World.step p) (World.consumed p) (NoPendingScope p) []
      World.empty events)
    (hrun : Machine.run (World.step p) World.empty events = some w)
    (hdistinct : HandlesDistinct p (createdRecords events)) (identityId : Bytes 16) :
    ∃ w', revokeAll p identityId { w with opened := ∅ } [] = ⟨.ok (), w', []⟩ ∧
      (∀ name, Owned p w.files identityId name → w'.files.lookup name = none) ∧
      ∀ name, ¬ Owned p w.files identityId name → w'.files.lookup name = w.files.lookup name := by
  have hempty : Invariant (Stored p (createdRecords events)) (Stored p (createdRecords events))
      True World.empty := by
    constructor
    · constructor <;> simp [World.empty]
    · rintro n store - hstore
      simp [World.empty] at hstore
  have hw : Invariant (Stored p (createdRecords events)) (Stored p (createdRecords events))
      True w := by
    refine Machine.run_preserves_of_admissible (fun history w e w' he hallowed => ?_) hempty
      hallowed hrun
    exact stored_step hallowed fun record nowUnix capacity hcall =>
      ⟨nowUnix, capacity, e, he, hcall⟩
  have hready : Ready p (createdRecords events) { w with opened := ∅ } :=
    ⟨hw.files, fun n => AList.lookup_empty n⟩
  exact revokeAll_completes hready hdistinct identityId

/-- A revocation that stops between the rename and the removal, and the deletion after it. -/
theorem identity_deletion_completes_after_stop :
    ∃ w w', Machine.run (World.step samplePlatform) World.empty
        [⟨.createAt sampleRecord ⟨1000, by decide⟩ 4, []⟩, ⟨.close sampleScope, []⟩,
          ⟨.revokeAt sampleRecord.identityId (managementHandle samplePlatform sampleRecord),
            [.stopped true]⟩] = some w ∧
      revokeAll samplePlatform sampleRecord.identityId { w with opened := ∅ } [] =
        ⟨.ok (), w', []⟩ := by
  obtain ⟨w', hrun, -⟩ := identity_deletion_completes (p := samplePlatform)
    [⟨.createAt sampleRecord ⟨1000, by decide⟩ 4, []⟩, ⟨.close sampleScope, []⟩,
      ⟨.revokeAt sampleRecord.identityId (managementHandle samplePlatform sampleRecord),
        [.stopped true]⟩] _ (by decide +kernel) rfl
    (by
      rintro _ ⟨record, ⟨_, _, e, he, hcall⟩, rfl⟩ _ ⟨record', ⟨_, _, e', he', hcall'⟩, rfl⟩ -
      simp only [List.mem_cons, List.not_mem_nil, or_false] at he he'
      rcases he with rfl | rfl | rfl <;> rcases he' with rfl | rfl | rfl <;>
        simp_all)
    sampleRecord.identityId
  exact ⟨_, w', rfl, hrun⟩

/-- Pairing again while the deletion is pending leaves two files, and no deletion completes. -/
theorem identity_deletion_stuck :
    (Machine.run (World.step samplePlatform) World.empty
      [⟨.createAt sampleRecord ⟨1000, by decide⟩ 4, []⟩, ⟨.close sampleScope, []⟩,
        ⟨.revokeAt sampleRecord.identityId (managementHandle samplePlatform sampleRecord),
          [.stopped true]⟩,
        ⟨.createAt sampleRecord ⟨1001, by decide⟩ 4, []⟩]).map (fun w =>
      (revokeAll samplePlatform sampleRecord.identityId { w with opened := ∅ } []).value) =
      some (.error (.failure .missing)) := by
  decide +kernel

end Runs

end AgePluginPhone.Android
