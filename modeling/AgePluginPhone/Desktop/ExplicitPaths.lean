import AgePluginPhone.Desktop.DesktopCleanup
import AgePluginPhone.Desktop.SetupJournal
import AgePluginPhone.Library.AsciiText

/-!
# The names of an explicit pairing

The file names of an explicit setup, of the records kept beside it and of their replacement
temporaries, and when no two of them are the same.
-/

namespace AgePluginPhone.Desktop

open Library AgePluginPhone.Core AsciiText

section Hex

theorem hex_injective : Function.Injective hex := by
  intro xs ys h
  have hdigits : HexText.encode xs = HexText.encode ys := String.ofList_injective h
  have hread := congrArg HexText.decode hdigits
  rw [HexText.decode_encode, HexText.decode_encode] at hread
  exact Option.some.inj hread

theorem hex_bytes (bytes : List Byte) :
    ∀ b ∈ utf8 (hex bytes), (48 ≤ b.val ∧ b.val ≤ 57) ∨ (97 ≤ b.val ∧ b.val ≤ 102) := by
  have hall : hexDigits.all (fun c => c.utf8Size == 1 && ((48 ≤ (byte c).val && (byte c).val ≤ 57) ||
      (97 ≤ (byte c).val && (byte c).val ≤ 102))) = true := by
    decide
  have hdigits : ∀ c ∈ hexDigits, c.utf8Size = 1 ∧
      ((48 ≤ (byte c).val ∧ (byte c).val ≤ 57) ∨ (97 ≤ (byte c).val ∧ (byte c).val ≤ 102)) := by
    intro c hc
    simpa using List.all_eq_true.mp hall c hc
  have hascii : ∀ c ∈ (hex bytes).toList, c.utf8Size = 1 :=
    fun c hc => (hdigits c (hex_mem bytes c hc)).1
  intro b hb
  have htext : hex bytes = String.ofList (hex bytes).toList := String.ofList_toList.symm
  rw [htext, utf8_ofList hascii] at hb
  obtain ⟨c, hc, rfl⟩ := List.mem_map.mp hb
  exact (hdigits c (hex_mem bytes c hc)).2

def dash : Byte := 45

theorem dash_not_hex (bytes : List Byte) : dash ∉ utf8 (hex bytes) := by
  intro hmem
  have hdigit := hex_bytes bytes dash hmem
  simp [dash] at hdigit

theorem dash_not_decimal (n : ℕ) : dash ∉ utf8 (toString n) := by
  intro hmem
  have hdigit := decimal_bytes n dash hmem
  simp [dash] at hdigit

theorem folded_hex (bytes : List Byte) : Folded (utf8 (hex bytes)) := by
  intro b hb
  have hdigit := hex_bytes bytes b hb
  omega

end Hex

section Names

structure ExplicitNames where
  state : List Byte
  replay : List Byte
  stub : List Byte

def SetupJournal.names (journal : SetupJournal) : ExplicitNames where
  state := journal.desktopState.fileName.getD []
  replay := journal.replayState.fileName.getD []
  stub := journal.identityStub.fileName.getD []

/-- The files of a pairing, and those of the setup and removal of pairings. -/
inductive PairingFile
  | desktopState
  | replayState
  | identityStub
  | replayLock
  | replayPending
  | setupJournal
  | cleanupJournal
  | lifecycleLock
  | locator (identityId desktopId : Id)
  | legacyLocator (identityId : Id)
  deriving DecidableEq

variable (names : ExplicitNames)

def PairingFile.name : PairingFile → List Byte
  | .desktopState => names.state
  | .replayState => names.replay
  | .identityStub => names.stub
  | .replayLock => names.replay ++ utf8 ".lock"
  | .replayPending => names.replay ++ utf8 ".pending"
  | .setupJournal => utf8 "desktop-setup.cbor"
  | .cleanupJournal => utf8 journalName
  | .lifecycleLock => utf8 "desktop-cleanup.lock"
  | .locator identityId desktopId => utf8 (hex identityId.val ++ "-" ++ hex desktopId.val ++ ".cbor")
  | .legacyLocator identityId => utf8 (hex identityId.val ++ ".cbor")

/-- The name `Directory::replace` gives its temporary. -/
def temporaryName (child : List Byte) (process counter : ℕ) : List Byte :=
  temporaryPrefix child ++ utf8 (toString process ++ "-" ++ toString counter ++ ".tmp")

inductive NamedEntry
  | file (named : PairingFile)
  | temporary (named : PairingFile) (process counter : ℕ)
  deriving DecidableEq

def NamedEntry.name : NamedEntry → List Byte
  | .file named => named.name names
  | .temporary named process counter => temporaryName (named.name names) process counter

theorem journal_paths (root : PathBuf) :
    setupJournalPath root = root.join (PairingFile.setupJournal.name names) ∧
      journalPath root = root.join (PairingFile.cleanupJournal.name names) ∧
      journalLockPath root = root.join (PairingFile.lifecycleLock.name names) :=
  ⟨rfl, rfl, rfl⟩

/-- No two files or temporaries have one name, whatever the case of its letters, and the removal of
the temporaries of one file leaves everything else, in whichever directory. -/
structure NeverAlias : Prop where
  distinct : ∀ a b : NamedEntry, a ≠ b → foldCase (a.name names) ≠ foldCase (b.name names)
  kept : ∀ (file : PairingFile) (entry : NamedEntry),
    (∀ process counter, entry ≠ .temporary file process counter) →
    ∀ (directory : PathBuf) (disk : Disk) (faults : List Fault),
      (removeReplacementTemporaries (directory.join (file.name names)) disk faults).store.files.lookup
          (directory.join (entry.name names)) =
        disk.files.lookup (directory.join (entry.name names))

end Names

section Distinct

variable {names : ExplicitNames}

structure ExplicitNames.Accepted (names : ExplicitNames) : Prop where
  state : SetupJournal.ExplicitName names.state
  replay : SetupJournal.ExplicitName names.replay
  stub : SetupJournal.ExplicitName names.stub
  state_ne_replay : names.state ≠ names.replay
  state_ne_stub : names.state ≠ names.stub
  replay_ne_stub : names.replay ≠ names.stub

variable (names) in
/-- The stem and the reserved extension of the name of a file whose path the user does not choose. -/
def PairingFile.reserved : PairingFile → Option (List Byte × String)
  | .replayLock => some (names.replay, "lock")
  | .replayPending => some (names.replay, "pending")
  | .setupJournal => some (utf8 "desktop-setup", "cbor")
  | .cleanupJournal => some (utf8 "desktop-cleanup", "cbor")
  | .lifecycleLock => some (utf8 "desktop-cleanup", "lock")
  | .locator identityId desktopId =>
      some (utf8 (hex identityId.val) ++ dash :: utf8 (hex desktopId.val), "cbor")
  | .legacyLocator identityId => some (utf8 (hex identityId.val), "cbor")
  | _ => none

variable {file other : PairingFile} {stem : List Byte} {ext : String}

theorem name_of_reserved (h : file.reserved names = some (stem, ext)) :
    file.name names = stem ++ dot :: utf8 ext := by
  have hcbor : utf8 ".cbor" = dot :: utf8 "cbor" := by decide
  have hlock : utf8 ".lock" = dot :: utf8 "lock" := by decide
  have hpending : utf8 ".pending" = dot :: utf8 "pending" := by decide
  have hdash : utf8 "-" = [dash] := by decide
  cases file with
  | desktopState | replayState | identityStub => cases h
  | replayLock =>
      cases h
      rw [PairingFile.name, hlock]
  | replayPending =>
      cases h
      rw [PairingFile.name, hpending]
  | setupJournal | cleanupJournal | lifecycleLock =>
      cases h
      simp only [PairingFile.name]
      decide
  | locator identityId desktopId =>
      cases h
      rw [PairingFile.name, utf8_append, utf8_append, utf8_append, hcbor, hdash]
      simp
  | legacyLocator identityId =>
      cases h
      rw [PairingFile.name, utf8_append, hcbor]

theorem reserved_ext (h : file.reserved names = some (stem, ext)) :
    ext = "cbor" ∨ ext = "lock" ∨ ext = "pending" := by
  cases file with
  | desktopState | replayState | identityStub => cases h
  | replayLock | lifecycleLock =>
      cases h
      exact Or.inr (Or.inl rfl)
  | replayPending =>
      cases h
      exact Or.inr (Or.inr rfl)
  | setupJournal | cleanupJournal | locator | legacyLocator =>
      cases h
      exact Or.inl rfl

private theorem hex_ne_nil (id : Id) : utf8 (hex id.val) ≠ [] := by
  intro h
  have hlength := utf8_hex_length id.val
  rw [h, id.property] at hlength
  cases hlength

private theorem dot_not_hex (bytes : List Byte) : dot ∉ utf8 (hex bytes) := by
  intro hmem
  have hdigit := hex_bytes bytes dot hmem
  simp [dot] at hdigit

private theorem folded_of_plain {name : List Byte} (h : ∀ b ∈ name, SetupJournal.plainByte b) :
    Folded name := by
  intro b hb
  have hplain := h b hb
  unfold SetupJournal.plainByte at hplain
  omega

/-- The fixed parts of names have no capital, and the stems no dot. -/
private theorem fixed_texts :
    (∀ stem ∈ [utf8 "desktop-setup", utf8 "desktop-cleanup"],
      stem ≠ [] ∧ Folded stem ∧ dot ∉ stem) ∧
    (∀ ext ∈ ["cbor", "lock", "pending"], Folded (dot :: utf8 ext)) ∧
    Folded (utf8 ".replace-") ∧ Folded (utf8 ".tmp") := by decide +kernel

/-- A stem is the name of the replay state or has neither a capital nor a dot. -/
theorem reserved_stem (h : file.reserved names = some (stem, ext)) :
    stem = names.replay ∨ (stem ≠ [] ∧ Folded stem ∧ dot ∉ stem) := by
  cases file with
  | desktopState | replayState | identityStub => cases h
  | replayLock | replayPending =>
      cases h
      exact Or.inl rfl
  | setupJournal | cleanupJournal | lifecycleLock =>
      cases h
      exact Or.inr (fixed_texts.1 _ (by simp))
  | locator identityId desktopId =>
      cases h
      refine Or.inr ⟨by simp, ?_, ?_⟩
      · have hdash : Folded [dash] := by simp [Folded, dash]
        have htail : Folded ([dash] ++ utf8 (hex desktopId.val)) :=
          folded_append.mpr ⟨hdash, folded_hex _⟩
        exact folded_append.mpr ⟨folded_hex _, htail⟩
      · intro hmem
        rcases List.mem_append.mp hmem with hleft | hright
        · exact dot_not_hex _ hleft
        · rcases List.mem_cons.mp hright with hhead | htail
          · cases hhead
          · exact dot_not_hex _ htail
  | legacyLocator identityId =>
      cases h
      exact Or.inr ⟨hex_ne_nil identityId, folded_hex _, dot_not_hex _⟩

variable (accepted : names.Accepted)

include accepted

theorem reserved_stem_ne_nil (h : file.reserved names = some (stem, ext)) : stem ≠ [] := by
  rcases reserved_stem h with rfl | hstem
  · exact accepted.replay.nonempty
  · exact hstem.1

/-- A name that is not the user's has a reserved extension. -/
theorem extension_of_reserved (h : file.reserved names = some (stem, ext)) :
    extensionOf (file.name names) = some (utf8 ext) := by
  rw [name_of_reserved h]
  rcases reserved_ext h with rfl | rfl | rfl <;>
    exact extensionOf_append (reserved_stem_ne_nil accepted h) (by decide) (by decide)

/-- A name of the user's is an explicit name. -/
theorem explicit_of_not_reserved (h : file.reserved names = none) :
    SetupJournal.ExplicitName (file.name names) := by
  cases file with
  | desktopState => exact accepted.state
  | replayState => exact accepted.replay
  | identityStub => exact accepted.stub
  | _ => cases h

theorem folded_file (file : PairingFile) : Folded (file.name names) := by
  cases hreserved : file.reserved names with
  | none => exact folded_of_plain (explicit_of_not_reserved accepted hreserved).plain
  | some parts =>
      obtain ⟨stem, ext⟩ := parts
      have hstem : Folded stem := by
        rcases reserved_stem hreserved with rfl | hstem
        · exact folded_of_plain accepted.replay.plain
        · exact hstem.2.1
      have hext : Folded (dot :: utf8 ext) := by
        rcases reserved_ext hreserved with rfl | rfl | rfl <;> exact fixed_texts.2.1 _ (by simp)
      rw [name_of_reserved hreserved]
      exact folded_append.mpr ⟨hstem, hext⟩

/-- No file has the name of a replacement temporary. -/
theorem replacement_starts_differently (file : PairingFile) : ¬ utf8 ".replace-" <+: file.name names := by
  cases hreserved : file.reserved names with
  | none => exact (explicit_of_not_reserved accepted hreserved).replacement
  | some parts =>
      obtain ⟨stem, ext⟩ := parts
      intro hprefix
      rw [name_of_reserved hreserved] at hprefix
      have hstart : utf8 ".replace-" <+: stem := by
        have hdots : utf8 ".replace-" = dot :: utf8 "replace-" := by decide
        rw [hdots] at hprefix ⊢
        exact prefix_of_prefix_append (by decide) (reserved_stem_ne_nil accepted hreserved) hprefix
      rcases reserved_stem hreserved with rfl | hstem
      · exact accepted.replay.replacement hstart
      · exact hstem.2.2 (hstart.subset (by decide))

omit accepted in
private theorem of_reserved_lock (h : file.reserved names = some (stem, "lock")) :
    (file = .replayLock ∧ stem = names.replay) ∨
      (file = .lifecycleLock ∧ stem = utf8 "desktop-cleanup") := by
  cases file with
  | replayLock =>
      cases h
      exact Or.inl ⟨rfl, rfl⟩
  | lifecycleLock =>
      cases h
      exact Or.inr ⟨rfl, rfl⟩
  | _ => simp [PairingFile.reserved] at h

omit accepted in
private theorem of_reserved_cbor (h : file.reserved names = some (stem, "cbor")) :
    (file = .setupJournal ∧ stem = utf8 "desktop-setup") ∨
    (file = .cleanupJournal ∧ stem = utf8 "desktop-cleanup") ∨
    (∃ identityId desktopId, file = .locator identityId desktopId ∧
      stem = utf8 (hex identityId.val) ++ dash :: utf8 (hex desktopId.val)) ∨
    ∃ identityId, file = .legacyLocator identityId ∧ stem = utf8 (hex identityId.val) := by
  cases file with
  | setupJournal =>
      cases h
      exact Or.inl ⟨rfl, rfl⟩
  | cleanupJournal =>
      cases h
      exact Or.inr (Or.inl ⟨rfl, rfl⟩)
  | locator identityId desktopId =>
      cases h
      exact Or.inr (Or.inr (Or.inl ⟨identityId, desktopId, rfl, rfl⟩))
  | legacyLocator identityId =>
      cases h
      exact Or.inr (Or.inr (Or.inr ⟨identityId, rfl, rfl⟩))
  | _ => simp [PairingFile.reserved] at h

omit accepted in
private theorem of_reserved_pending (h : file.reserved names = some (stem, "pending")) :
    file = .replayPending := by
  cases file with
  | replayPending => rfl
  | _ => simp [PairingFile.reserved] at h

omit accepted in
private theorem of_not_reserved (h : file.reserved names = none) :
    file = .desktopState ∨ file = .replayState ∨ file = .identityStub := by
  cases file <;> simp_all [PairingFile.reserved]

omit accepted in
private theorem id_inj {i j : Id} (h : utf8 (hex i.val) = utf8 (hex j.val)) : i = j :=
  Subtype.ext (hex_injective (utf8_injective h))

omit accepted in
private theorem cbor_injective (hfile : file.reserved names = some (stem, "cbor"))
    (hother : other.reserved names = some (stem, "cbor")) : file = other := by
  have hsetup : (utf8 "desktop-setup").length = 13 := by decide
  have hcleanup : (utf8 "desktop-cleanup").length = 15 := by decide
  have hid (id : Id) : (utf8 (hex id.val)).length = 32 := by rw [utf8_hex_length, id.property]
  have hids (i d : Id) : (utf8 (hex i.val) ++ dash :: utf8 (hex d.val)).length = 65 := by
    rw [List.length_append, List.length_cons, hid, hid]
  rcases of_reserved_cbor hfile with ⟨rfl, rfl⟩ | ⟨rfl, rfl⟩ | ⟨i, d, rfl, rfl⟩ | ⟨i, rfl, rfl⟩ <;>
    rcases of_reserved_cbor hother with ⟨rfl, h⟩ | ⟨rfl, h⟩ | ⟨j, e, rfl, h⟩ | ⟨j, rfl, h⟩ <;>
    have hlength := congrArg List.length h <;>
    simp only [hsetup, hcleanup, hid, hids] at hlength <;> first | omega | skip
  · rfl
  · rfl
  · obtain ⟨hi, hd⟩ := fields_eq (dash_not_hex _) (dash_not_hex _) h
    rw [id_inj hi, id_inj hd]
  · rw [id_inj h]

omit accepted in
/-- Reserved names differ unless the lock of the replay state is the lifecycle lock. -/
theorem reserved_injective (hreplay : names.replay ≠ utf8 "desktop-cleanup")
    (hfile : file.reserved names = some (stem, ext)) (hother : other.reserved names = some (stem, ext)) :
    file = other := by
  rcases reserved_ext hfile with rfl | rfl | rfl
  · exact cbor_injective hfile hother
  · rcases of_reserved_lock hfile with ⟨rfl, hstem⟩ | ⟨rfl, hstem⟩ <;>
      rcases of_reserved_lock hother with ⟨rfl, hstem'⟩ | ⟨rfl, hstem'⟩
    · rfl
    · exact absurd (hstem.symm.trans hstem') hreplay
    · exact absurd (hstem'.symm.trans hstem) hreplay
    · rfl
  · rw [of_reserved_pending hfile, of_reserved_pending hother]

/-- The names of the files differ unless the lock of the replay state is the lifecycle lock. -/
theorem file_name_injective (hreplay : names.replay ≠ utf8 "desktop-cleanup") :
    Function.Injective (PairingFile.name names) := by
  have hmixed {file other : PairingFile} {stem : List Byte} {ext : String}
      (hfile : file.reserved names = none) (hother : other.reserved names = some (stem, ext))
      (h : file.name names = other.name names) : False := by
    have hexplicit := explicit_of_not_reserved accepted hfile
    rw [h] at hexplicit
    refine hexplicit.extension _ (extension_of_reserved accepted hother) ?_
    rcases reserved_ext hother with rfl | rfl | rfl <;> simp [SetupJournal.reservedExtensions]
  intro file other h
  cases hfile : file.reserved names with
  | none =>
      cases hother : other.reserved names with
      | none =>
          rcases of_not_reserved hfile with rfl | rfl | rfl <;>
            rcases of_not_reserved hother with rfl | rfl | rfl
          · rfl
          · exact absurd h accepted.state_ne_replay
          · exact absurd h accepted.state_ne_stub
          · exact absurd h.symm accepted.state_ne_replay
          · rfl
          · exact absurd h accepted.replay_ne_stub
          · exact absurd h.symm accepted.state_ne_stub
          · exact absurd h.symm accepted.replay_ne_stub
          · rfl
      | some parts =>
          obtain ⟨stem, ext⟩ := parts
          exact (hmixed hfile hother h).elim
  | some parts =>
      obtain ⟨stem, ext⟩ := parts
      cases hother : other.reserved names with
      | none => exact (hmixed hother hfile h.symm).elim
      | some parts' =>
          obtain ⟨stem', ext'⟩ := parts'
          have hexts : utf8 ext = utf8 ext' := by
            have hleft := extension_of_reserved accepted hfile
            rw [h, extension_of_reserved accepted hother] at hleft
            exact (Option.some.inj hleft).symm
          obtain rfl := utf8_injective hexts
          rw [name_of_reserved hfile, name_of_reserved hother, List.append_cancel_right_eq] at h
          subst h
          exact reserved_injective hreplay hfile hother

end Distinct

section Temporaries

theorem temporaryName_eq (child : List Byte) (process counter : ℕ) :
    temporaryName child process counter = utf8 ".replace-" ++ (utf8 (hex child) ++
      dash :: (utf8 (toString process) ++ dash :: (utf8 (toString counter) ++ utf8 ".tmp"))) := by
  have hdash : utf8 "-" = [dash] := by decide
  simp [temporaryName, temporaryPrefix, utf8_append, hdash]

theorem temporaryPrefix_inj {child other : List Byte} {process counter : ℕ}
    (h : temporaryPrefix child <+: temporaryName other process counter) : child = other := by
  have hdash : utf8 "-" = [dash] := by decide
  rw [temporaryName_eq, temporaryPrefix, List.append_assoc, List.prefix_append_right_inj, hdash] at h
  have hfields := field_eq_of_prefix (dash_not_hex child) (dash_not_hex other) h
  exact hex_injective (utf8_injective hfields)

theorem temporaryName_inj {child other : List Byte} {process counter process' counter' : ℕ}
    (h : temporaryName child process counter = temporaryName other process' counter') :
    child = other ∧ process = process' ∧ counter = counter' := by
  rw [temporaryName_eq, temporaryName_eq, List.append_cancel_left_eq] at h
  obtain ⟨hchild, hrest⟩ := fields_eq (dash_not_hex child) (dash_not_hex other) h
  obtain ⟨hprocess, hlast⟩ := fields_eq (dash_not_decimal process) (dash_not_decimal process') hrest
  rw [List.append_cancel_right_eq] at hlast
  exact ⟨hex_injective (utf8_injective hchild), decimal_injective hprocess, decimal_injective hlast⟩

theorem folded_temporary (child : List Byte) (process counter : ℕ) :
    Folded (temporaryName child process counter) := by
  obtain ⟨-, -, hstart, hend⟩ := fixed_texts
  have hdash : Folded [dash] := by simp [Folded, dash]
  have hcons {text : List Byte} (h : Folded text) : Folded (dash :: text) :=
    folded_append.mpr ⟨hdash, h⟩
  rw [temporaryName_eq]
  refine folded_append.mpr ⟨hstart, folded_append.mpr ⟨folded_hex child, hcons ?_⟩⟩
  refine folded_append.mpr ⟨folded_decimal process, hcons ?_⟩
  exact folded_append.mpr ⟨folded_decimal counter, hend⟩

theorem replacement_starts_temporary (child : List Byte) (process counter : ℕ) :
    utf8 ".replace-" <+: temporaryName child process counter := by
  rw [temporaryName_eq]
  exact List.prefix_append _ _

end Temporaries

section Aliases

variable {names : ExplicitNames} (accepted : names.Accepted)

include accepted

theorem folded_entry (entry : NamedEntry) : Folded (entry.name names) := by
  cases entry with
  | file named => exact folded_file accepted named
  | temporary named process counter => exact folded_temporary _ _ _

theorem entry_name_injective (hreplay : names.replay ≠ utf8 "desktop-cleanup") :
    Function.Injective (NamedEntry.name names) := by
  have hfiles := file_name_injective accepted hreplay
  have hmixed {file other : PairingFile} {process counter : ℕ}
      (h : file.name names = temporaryName (other.name names) process counter) : False :=
    replacement_starts_differently accepted file (h ▸ replacement_starts_temporary _ process counter)
  intro a b h
  cases a with
  | file named =>
      cases b with
      | file other => rw [hfiles h]
      | temporary other process counter => exact (hmixed h).elim
  | temporary named process counter =>
      cases b with
      | file other => exact (hmixed h.symm).elim
      | temporary other process' counter' =>
          obtain ⟨hname, rfl, rfl⟩ := temporaryName_inj h
          rw [hfiles hname]

/-- A file's temporaries are those with its prefix. -/
theorem eq_temporary_of_prefix (hreplay : names.replay ≠ utf8 "desktop-cleanup") {file : PairingFile}
    {entry : NamedEntry} (h : temporaryPrefix (file.name names) <+: entry.name names) :
    ∃ process counter, entry = .temporary file process counter := by
  cases entry with
  | file named =>
      have hstart : utf8 ".replace-" <+: temporaryPrefix (file.name names) := by
        rw [temporaryPrefix, List.append_assoc]
        exact List.prefix_append _ _
      exact absurd (hstart.trans h) (replacement_starts_differently accepted named)
  | temporary named process counter =>
      obtain rfl := file_name_injective accepted hreplay (temporaryPrefix_inj h)
      exact ⟨process, counter, rfl⟩

end Aliases

section Removal

/-- The removal of the temporaries of a file leaves a file whose name does not have their prefix. -/
theorem lookup_of_not_prefix {directory : PathBuf} {child name : List Byte}
    (h : ¬ temporaryPrefix child <+: name) (disk : Disk) (faults : List Fault) :
    (removeReplacementTemporaries (directory.join child) disk faults).store.files.lookup
        (directory.join name) = disk.files.lookup (directory.join name) := by
  have hnot : Cell.file (directory.join name) ∉ temporaries .macos (directory.join child) := by
    intro hmem
    obtain ⟨-, entry, hentry, htemporary⟩ := hmem
    obtain rfl := Cell.file.inj hentry
    simp only [isTemporaryOf, PathBuf.fileName_join, Bool.and_eq_true,
      List.isPrefixOf_iff_prefix] at htemporary
    exact h htemporary.1.2
  have hsame := ((erases_temporaries .macos (directory.join child)).ends disk faults).get_eq hnot
  exact Option.map_injective (fun _ _ => Held.file.inj) hsame

end Removal

namespace SetupJournal

theorem accepted_of_validateExplicitRoot {journal : SetupJournal} {root : PathBuf}
    (h : journal.validateExplicitRoot root = .ok ()) : journal.names.Accepted := by
  obtain ⟨state, replay, stub, hstate, hreplay, hstub, hstateOk, hreplayOk, hstubOk, hne⟩ :=
    names_of_validateExplicitRoot h
  have hnames : journal.names = ⟨state, replay, stub⟩ := by
    simp [names, hstate, hreplay, hstub]
  rw [hnames]
  exact ⟨hstateOk, hreplayOk, hstubOk, hne.1, hne.2.1, hne.2.2⟩

/-- The names beside an accepted explicit setup never alias, unless the lock of the replay state is
the lifecycle lock. -/
theorem explicit_names_never_alias {journal : SetupJournal} {root : PathBuf}
    (h : journal.validateExplicitRoot root = .ok ()) :
    NeverAlias journal.names ↔ journal.replayState.fileName ≠ some (utf8 "desktop-cleanup") := by
  have haccepted := accepted_of_validateExplicitRoot h
  have hname : journal.replayState.fileName = some journal.names.replay := by
    obtain ⟨_, replay, _, -, hreplay, -⟩ := names_of_validateExplicitRoot h
    simp [names, hreplay]
  rw [hname, ne_eq, Option.some.injEq]
  constructor
  · intro hnever hreplay
    refine hnever.distinct (.file .replayLock) (.file .lifecycleLock) (by simp) ?_
    have hsame : PairingFile.replayLock.name journal.names = PairingFile.lifecycleLock.name journal.names := by
      rw [PairingFile.name, PairingFile.name, hreplay]
      decide
    exact congrArg foldCase hsame
  · intro hreplay
    refine ⟨?_, ?_⟩
    · intro a b hne hfold
      rw [(folded_entry haccepted a).foldCase_eq, (folded_entry haccepted b).foldCase_eq] at hfold
      exact hne (entry_name_injective haccepted hreplay hfold)
    · intro file entry hother directory disk faults
      apply lookup_of_not_prefix
      intro hprefix
      obtain ⟨process, counter, hentry⟩ := eq_temporary_of_prefix haccepted hreplay hprefix
      exact hother process counter hentry

section Samples

/-- An explicit setup with a replay state of the given name and a stub outside the private root. -/
def explicitSetup (replay : String) : SetupJournal :=
  { new sampleRoot (Bytes.replicate 16 1) (Bytes.replicate 16 2) with
    explicitPaths := true
    desktopState := sampleRoot.join (utf8 "desktop.state")
    replayState := sampleRoot.join (utf8 replay)
    identityStub := ⟨some "/", [.normal (utf8 "phone.txt")]⟩ }

private theorem explicitSetups_accepted :
    (explicitSetup "replay.state").validateExplicitRoot sampleRoot = .ok () ∧
      (explicitSetup "desktop-cleanup").validateExplicitRoot sampleRoot = .ok () ∧
      PairingFile.replayLock.name (explicitSetup "desktop-cleanup").names =
        PairingFile.lifecycleLock.name (explicitSetup "desktop-cleanup").names := by decide +kernel

theorem explicit_names_never_alias_sample :
    (explicitSetup "replay.state").validateExplicitRoot sampleRoot = .ok () ∧
      (NeverAlias (explicitSetup "replay.state").names ↔
        (explicitSetup "replay.state").replayState.fileName ≠ some (utf8 "desktop-cleanup")) := by
  have haccepted := explicitSetups_accepted.1
  exact ⟨haccepted, explicit_names_never_alias haccepted⟩

/-- A replay state whose lock is the lifecycle lock is accepted. -/
theorem replay_lock_aliases_lifecycle_lock :
    (explicitSetup "desktop-cleanup").validateExplicitRoot sampleRoot = .ok () ∧
      PairingFile.replayLock.name (explicitSetup "desktop-cleanup").names =
        PairingFile.lifecycleLock.name (explicitSetup "desktop-cleanup").names ∧
      ¬ NeverAlias (explicitSetup "desktop-cleanup").names := by
  obtain ⟨-, haccepted, hsame⟩ := explicitSetups_accepted
  refine ⟨haccepted, hsame, ?_⟩
  intro hnever
  refine hnever.distinct (.file .replayLock) (.file .lifecycleLock) (by decide) ?_
  exact congrArg foldCase hsame

end Samples

end SetupJournal

end AgePluginPhone.Desktop
