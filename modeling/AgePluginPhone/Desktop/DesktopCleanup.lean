import AgePluginPhone.Desktop.CleanupJournal
import AgePluginPhone.Library.Erasure

/-!
# Interrupted cleanup of a desktop pairing

`execute_cleanup` removes what a journal owns, step by step, and the journal last. Every step may
fail, with or without having taken effect, or be the last one of its process; a later attempt starts
over.
-/

namespace AgePluginPhone.Desktop

open Library AgePluginPhone.Core StorageM Erasure

inductive Platform
  | windows
  | macos
  deriving DecidableEq

/-- Who may use a directory entry: a single-link regular file of the user alone, another single-link
regular file, or anything else. -/
inductive Access
  | owner
  | regular
  | other
  deriving DecidableEq

structure DirectoryEntry where
  access : Access
  content : List Byte
  deriving DecidableEq

inductive KeyRole
  | signing
  | selection
  deriving DecidableEq

/-- The files, and the named keys of the Windows key provider. A macOS key lives in its desktop state
file alone. -/
structure Disk where
  files : AList fun _ : PathBuf => DirectoryEntry
  keys : Finset (Id × KeyRole)

inductive CleanupError
  | unsupported
  | invalidTarget
  | confirmationMismatch
  | busy
  | storage
  deriving DecidableEq

abbrev CleanupM := StorageM Disk CleanupError

section Storage

/-- The path checks of the storage functions. -/
def Platform.accepts (platform : Platform) (path : PathBuf) : Bool :=
  match platform with
  | .windows => path.isAbsolute && path.fileName.isSome
  | .macos => CleanupJournal.canonical path && path.fileName.isSome

/-- A step that changes nothing: a validation or a sync. -/
def settle (failure : CleanupError) : CleanupM Unit := effect (fun disk => some disk) failure

def Disk.erase (allowed : Access → Bool) (path : PathBuf) (disk : Disk) : Option Disk := do
  let entry ← disk.files.lookup path
  if allowed entry.access then some { disk with files := disk.files.erase path } else none

/-- Remove a directory entry of the required access, which may be missing. -/
def removeFile (allowed : Access → Bool) (path : PathBuf) : CleanupM Unit :=
  effect (fun disk =>
    match disk.files.lookup path with
    | none => some disk
    | some _ => disk.erase allowed path) .storage

def temporaryPrefix (child : List Byte) : List Byte :=
  utf8 ".replace-" ++ utf8 (hex child) ++ utf8 "-"

/-- The path names a replacement temporary of the file at `target`. -/
def isTemporaryOf (target path : PathBuf) : Bool :=
  match target.fileName, path.fileName with
  | some child, some name =>
      decide (path.parent = target.parent) && (temporaryPrefix child).isPrefixOf name &&
        (utf8 ".tmp").isSuffixOf name
  | _, _ => false

/-- `Directory::remove_replacement_temporaries`. -/
def removeReplacementTemporaries (path : PathBuf) : CleanupM Unit := do
  let disk ← load
  (disk.files.keys.filter fun entry => isTemporaryOf path entry).forM fun entry =>
    effect (Disk.erase (· = .owner) entry) .storage
  settle .storage

def removeKey (desktopId : Id) (role : KeyRole) : CleanupM Unit :=
  effect (fun disk => some { disk with keys := disk.keys.erase (desktopId, role) }) .storage

/-- `remove_key_set`, which looks for both keys again at its end. -/
def removeKeySet (desktopId : Id) : CleanupM Unit := do
  removeKey desktopId .signing
  removeKey desktopId .selection
  effect (fun disk =>
    if (desktopId, .signing) ∈ disk.keys ∨ (desktopId, .selection) ∈ disk.keys then none
    else some disk) .storage

end Storage

section Cleanup

/-- The trait `CleanupOperations`. -/
structure CleanupOperations where
  removePrivate : PathBuf → CleanupM Unit
  removePublic : PathBuf → CleanupM Unit
  removeKeys : Id → CleanupM Unit

/-- The checks of a path before anything is removed. -/
def validatePrivate (platform : Platform) (path : PathBuf) : Except CleanupError Unit := do
  ensure (platform = .macos → path.parent.isSome) .invalidTarget
  ensure (platform.accepts path) .storage

def removeTemporaries (platform : Platform) (path : PathBuf) : CleanupM Unit :=
  match platform with
  | .windows => pure ()
  | .macos => removeReplacementTemporaries path

def nativeCleanupOperations (platform : Platform) : CleanupOperations where
  removePrivate path := do
    check (validatePrivate platform path)
    removeTemporaries platform path
    removeFile (· = .owner) path
  removePublic path := do
    check (ensure (platform.accepts path) .storage)
    removeFile (· ≠ .other) path
  removeKeys desktopId :=
    match platform with
    | .windows => removeKeySet desktopId
    | .macos => pure ()

/-- `CheckedMacosCleanupOperations`: each operation first validates the directory and, until it is
removed, the lock the attempt holds. Only another process can make that fail. -/
def checkedMacosCleanupOperations : CleanupOperations where
  removePrivate path := do
    settle .busy
    (nativeCleanupOperations .macos).removePrivate path
  removePublic path := do
    settle .busy
    (nativeCleanupOperations .macos).removePublic path
  removeKeys desktopId := do
    settle .busy
    (nativeCleanupOperations .macos).removeKeys desktopId

def cleanupOperations : Platform → CleanupOperations
  | .windows => nativeCleanupOperations .windows
  | .macos => checkedMacosCleanupOperations

def replayPendingPath (path : PathBuf) : Except CleanupError PathBuf :=
  okOr (path.sidecar ".pending") .invalidTarget

def replayLockPath (path : PathBuf) : Except CleanupError PathBuf :=
  okOr (path.sidecar ".lock") .invalidTarget

variable (platform : Platform) (operations : CleanupOperations) (journal : CleanupJournal)
  (root : PathBuf)

def removeReplayPending : CleanupM Unit :=
  match platform with
  | .windows => pure ()
  | .macos => do operations.removePrivate (← check (replayPendingPath journal.replayState))

def removeStub : CleanupM Unit :=
  match journal.paired with
  | some (_, stubPath) => operations.removePublic stubPath
  | none => pure ()

def executeCleanup : CleanupM Unit := do
  operations.removePrivate journal.replayState
  removeReplayPending platform operations journal
  operations.removeKeys journal.desktopId
  operations.removePrivate journal.desktopState
  operations.removePrivate journal.locatorPath
  operations.removePrivate (← check (replayLockPath journal.replayState))
  removeStub operations journal
  operations.removePrivate (journalPath root)

end Cleanup

section Owned

/-- What a disk can hold: a file at a path, and a named key. -/
inductive Cell
  | file (path : PathBuf)
  | key (desktopId : Id) (role : KeyRole)
  deriving DecidableEq

inductive Held
  | file (entry : DirectoryEntry)
  | key
  deriving DecidableEq

def Disk.get (disk : Disk) : Cell → Option Held
  | .file path => (disk.files.lookup path).map .file
  | .key desktopId role => if (desktopId, role) ∈ disk.keys then some .key else none

variable (platform : Platform) (journal : CleanupJournal) (root : PathBuf)

/-- The private paths of a journal, in the order of their removal. -/
def privatePaths : List PathBuf :=
  [journal.replayState] ++
    (if platform = .macos then (journal.replayState.sidecar ".pending").toList else []) ++
    [journal.desktopState, journal.locatorPath] ++ (journal.replayState.sidecar ".lock").toList

def stubPaths : List PathBuf := (journal.paired.map Prod.snd).toList

/-- The replacement temporaries of the file at a path, which only macOS attributes to it. -/
def temporaries (path : PathBuf) : Set Cell :=
  {cell | platform = .macos ∧ ∃ entry, cell = .file entry ∧ isTemporaryOf path entry}

def keySet (desktopId : Id) : Set Cell :=
  {cell | platform = .windows ∧ ∃ role, cell = .key desktopId role}

/-- A private file and its replacement temporaries. -/
def privateCells (path : PathBuf) : Set Cell := insert (.file path) (temporaries platform path)

def stubCells : Set Cell := {cell | ∃ path ∈ stubPaths journal, cell = .file path}

/-- What a journal owns besides itself: its private files, its key set, its stub, and on macOS the
replacement temporaries of the private files and of the journal. -/
def owned : Set Cell :=
  {cell | (∃ path ∈ privatePaths platform journal, cell ∈ privateCells platform path) ∨
    cell ∈ keySet platform journal.desktopId ∨ cell ∈ stubCells journal ∨
    cell ∈ temporaries platform (journalPath root)}

end Owned

section Erasing

variable {platform : Platform} {journal : CleanupJournal} {root path : PathBuf} {disk next : Disk}

theorem Disk.get_file_eq_none : disk.get (.file path) = none ↔ disk.files.lookup path = none := by
  simp [Disk.get]

theorem Disk.erase_eq_some {allowed : Access → Bool} (h : disk.erase allowed path = some next) :
    next = { disk with files := disk.files.erase path } := by
  simp only [Disk.erase, Option.bind_eq_bind, Option.bind_eq_some_iff] at h
  obtain ⟨entry, -, h⟩ := h
  split_ifs at h
  exact (Option.some.inj h).symm

theorem emptied_erase (disk : Disk) (path : PathBuf) :
    Emptied Disk.get {.file path} disk { disk with files := disk.files.erase path } ∧
      Gone Disk.get {.file path} { disk with files := disk.files.erase path } := by
  have hgone : ({ disk with files := disk.files.erase path } : Disk).get (.file path) = none := by
    simp [Disk.get]
  constructor
  · intro cell
    by_cases hcell : cell = .file path
    · subst hcell
      exact Or.inr ⟨rfl, hgone⟩
    · refine Or.inl ?_
      cases cell with
      | key desktopId role => rfl
      | file other =>
          have hother : other ≠ path := fun h => hcell (by rw [h])
          simp [Disk.get, AList.lookup_erase_ne hother]
  · intro cell hcell
    obtain rfl : cell = .file path := hcell
    exact hgone

theorem erases_file (allowed : Access → Bool) (path : PathBuf) :
    Erases Disk.get {.file path} (removeFile allowed path) := by
  apply Erases.effect
  intro disk next h
  cases hlookup : disk.files.lookup path with
  | none =>
      simp only [hlookup, Option.some.injEq] at h
      subst h
      refine ⟨Emptied.refl _ _, fun cell hcell => ?_⟩
      obtain rfl : cell = .file path := hcell
      exact Disk.get_file_eq_none.mpr hlookup
  | some entry =>
      simp only [hlookup] at h
      rw [Disk.erase_eq_some h]
      exact emptied_erase disk path

theorem erases_settle (failure : CleanupError) : Erases Disk.get ∅ (settle failure) :=
  Erases.settle fun _ _ h => (Option.some.inj h).symm

/-- The replacement temporaries a disk holds. -/
def temporariesOn (path : PathBuf) (disk : Disk) : Set Cell :=
  {cell | ∃ entry ∈ disk.files.keys.filter fun entry => isTemporaryOf path entry,
    cell ∈ ({.file entry} : Set Cell)} ∪ ∅

theorem erases_temporaries (platform : Platform) (path : PathBuf) :
    Erases Disk.get (temporaries platform path) (removeTemporaries platform path) := by
  cases platform with
  | windows => exact Erases.pure'.congr (by simp [temporaries])
  | macos =>
      have hloop : ∀ disk : Disk, Erases Disk.get (temporariesOn path disk) (do
          (disk.files.keys.filter fun entry => isTemporaryOf path entry).forM fun entry =>
            effect (Disk.erase (· = .owner) entry) .storage
          settle .storage) := by
        intro disk
        refine Erases.bind (Erases.forM fun entry _ => ?_) (erases_settle _)
        apply Erases.effect
        intro disk next h
        rw [Disk.erase_eq_some h]
        exact emptied_erase disk entry
      apply Erases.load_bind hloop
      · intro disk cell hcell
        simp only [temporariesOn, Set.union_empty, Set.mem_ofPred_eq, List.mem_filter,
          Set.mem_singleton_iff] at hcell
        obtain ⟨entry, hentry, rfl⟩ := hcell
        exact ⟨rfl, entry, rfl, hentry.2⟩
      · intro disk cell hcell hrest
        obtain ⟨-, entry, rfl, htemporary⟩ := hcell
        rw [Disk.get_file_eq_none]
        by_contra hfound
        refine hrest (Or.inl ⟨entry, List.mem_filter.mpr ⟨?_, htemporary⟩, rfl⟩)
        exact AList.mem_keys.mp (AList.lookup_isSome.mp (Option.ne_none_iff_isSome.mp hfound))

theorem erases_key (desktopId : Id) (role : KeyRole) :
    Erases Disk.get {.key desktopId role} (removeKey desktopId role) := by
  apply Erases.effect
  intro disk next h
  obtain rfl := Option.some.inj h
  constructor
  · intro cell
    by_cases hcell : cell = .key desktopId role
    · subst hcell
      exact Or.inr ⟨rfl, by simp [Disk.get]⟩
    · refine Or.inl ?_
      cases cell with
      | file path => rfl
      | key otherId otherRole =>
          have hother : (otherId, otherRole) ≠ (desktopId, role) := by
            intro h
            obtain ⟨rfl, rfl⟩ := Prod.mk.inj h
            exact hcell rfl
          simp [Disk.get, hother]
  · intro cell hcell
    obtain rfl : cell = .key desktopId role := hcell
    simp [Disk.get]

/-- What the operations of a cleanup may do. -/
structure CleanupOperations.Sound (platform : Platform) (operations : CleanupOperations) : Prop where
  removePrivate : ∀ path,
    ErasesLast Disk.get (.file path) (temporaries platform path) (operations.removePrivate path)
  removePublic : ∀ path, Erases Disk.get {.file path} (operations.removePublic path)
  removeKeys : ∀ desktopId, Erases Disk.get (keySet platform desktopId) (operations.removeKeys desktopId)

theorem not_mem_temporaries (platform : Platform) (path : PathBuf) :
    Cell.file path ∉ temporaries platform path := by
  intro hmem
  obtain ⟨-, entry, hentry, htemporary⟩ := hmem
  obtain rfl := Cell.file.inj hentry
  cases hname : path.fileName with
  | none => simp [isTemporaryOf, hname] at htemporary
  | some name =>
      simp only [isTemporaryOf, hname, Bool.and_eq_true, List.isPrefixOf_iff_prefix] at htemporary
      have hlonger := htemporary.1.2.length_le
      rw [temporaryPrefix, List.length_append, List.length_append, utf8_hex_length] at hlonger
      have hdash : (utf8 "-").length = 1 := by decide
      omega

/-- The journal's name is that of no replacement temporary. -/
theorem journal_not_temporary (platform : Platform) (root path : PathBuf) :
    Cell.file (journalPath root) ∉ temporaries platform path := by
  intro hmem
  obtain ⟨-, entry, hentry, htemporary⟩ := hmem
  obtain rfl := Cell.file.inj hentry
  cases hname : path.fileName with
  | none => simp [isTemporaryOf, hname] at htemporary
  | some child =>
      simp only [isTemporaryOf, hname, journalPath, PathBuf.fileName_join, Bool.and_eq_true,
        List.isPrefixOf_iff_prefix] at htemporary
      have hstart : utf8 ".replace-" <+: utf8 journalName := by
        apply List.IsPrefix.trans _ htemporary.1.2
        rw [temporaryPrefix, List.append_assoc]
        exact List.prefix_append _ _
      exact absurd hstart (by decide)

theorem nativeCleanupOperations_sound (platform : Platform) :
    (nativeCleanupOperations platform).Sound platform where
  removePrivate path := by
    apply ErasesLast.check_bind
    intro _ _
    exact (ErasesLast.bind (erases_temporaries platform path) (not_mem_temporaries platform path)
      (ErasesLast.single (erases_file _ path))).congr (by simp)
  removePublic path := by
    apply Erases.check_bind
    intro _ _
    exact erases_file _ path
  removeKeys desktopId := by
    cases platform with
    | macos => exact Erases.pure'.congr (by simp [keySet])
    | windows =>
        refine ((erases_key desktopId .signing).bind ((erases_key desktopId .selection).bind
          (Erases.settle ?_))).congr ?_
        · intro disk next h
          split_ifs at h
          exact (Option.some.inj h).symm
        · ext cell
          constructor
          · intro hcell
            rcases hcell with rfl | rfl | hcell
            · exact ⟨rfl, .signing, rfl⟩
            · exact ⟨rfl, .selection, rfl⟩
            · exact absurd hcell (Set.notMem_empty _)
          · intro hcell
            obtain ⟨-, role, rfl⟩ := hcell
            cases role with
            | signing => exact Or.inl rfl
            | selection => exact Or.inr (Or.inl rfl)

theorem checkedMacosCleanupOperations_sound : checkedMacosCleanupOperations.Sound .macos where
  removePrivate path :=
    (ErasesLast.bind (erases_settle .busy) (Set.notMem_empty _)
      ((nativeCleanupOperations_sound .macos).removePrivate path)).congr (by simp)
  removePublic path :=
    ((erases_settle .busy).bind ((nativeCleanupOperations_sound .macos).removePublic path)).congr
      (by simp)
  removeKeys desktopId :=
    ((erases_settle .busy).bind ((nativeCleanupOperations_sound .macos).removeKeys desktopId)).congr
      (by simp)

theorem cleanupOperations_sound (platform : Platform) : (cleanupOperations platform).Sound platform := by
  cases platform with
  | windows => exact nativeCleanupOperations_sound .windows
  | macos => exact checkedMacosCleanupOperations_sound

end Erasing

section Cleanup

variable {platform : Platform} {operations : CleanupOperations} {journal : CleanupJournal}
  {root path : PathBuf}

theorem not_mem_privateCells (h : journalPath root ≠ path) :
    Cell.file (journalPath root) ∉ privateCells platform path := by
  intro hmem
  rcases hmem with hfile | htemporary
  · exact h (Cell.file.inj hfile)
  · exact journal_not_temporary platform root path htemporary

theorem CleanupOperations.Sound.erasesPrivate (h : operations.Sound platform) (path : PathBuf) :
    Erases Disk.get (privateCells platform path) (operations.removePrivate path) :=
  (h.removePrivate path).erases

/-- The cells of the file a journal's replay path leads to under a suffix. -/
def sidecarCells (platform : Platform) (journal : CleanupJournal) (suffix : String) : Set Cell :=
  {cell | ∃ path ∈ journal.replayState.sidecar suffix, cell ∈ privateCells platform path}

theorem sidecarCells_eq {suffix : String} (h : journal.replayState.sidecar suffix = some path) :
    sidecarCells platform journal suffix = privateCells platform path := by
  ext cell
  simp [sidecarCells, h]

theorem erases_removeReplayPending (h : operations.Sound platform) (journal : CleanupJournal) :
    Erases Disk.get (if platform = .macos then sidecarCells platform journal ".pending" else ∅)
      (removeReplayPending platform operations journal) := by
  cases platform with
  | windows => exact Erases.pure'
  | macos =>
      apply Erases.check_bind
      intro path hpath
      rw [if_pos rfl, sidecarCells_eq (okOr_eq_ok.mp hpath)]
      exact h.erasesPrivate path

theorem erases_removeStub (h : operations.Sound platform) (journal : CleanupJournal) :
    Erases Disk.get (stubCells journal) (removeStub operations journal) := by
  cases hpaired : journal.paired with
  | none =>
      simp only [removeStub, stubCells, stubPaths, hpaired]
      exact Erases.pure'.congr (by simp)
  | some pair =>
      simp only [removeStub, stubCells, stubPaths, hpaired]
      exact (h.removePublic pair.2).congr (by ext cell; simp)

/-- What a journal owns, in the order of its removal. -/
theorem owned_eq (platform : Platform) (journal : CleanupJournal) (root : PathBuf) :
    owned platform journal root = privateCells platform journal.replayState ∪
      ((if platform = .macos then sidecarCells platform journal ".pending" else ∅) ∪
        (keySet platform journal.desktopId ∪ (privateCells platform journal.desktopState ∪
          (privateCells platform journal.locatorPath ∪ (sidecarCells platform journal ".lock" ∪
            (stubCells journal ∪ temporaries platform (journalPath root))))))) := by
  have hpaths (cell : Cell) : (∃ path ∈ privatePaths platform journal, cell ∈ privateCells platform path) ↔
      cell ∈ privateCells platform journal.replayState ∨
        cell ∈ (if platform = .macos then sidecarCells platform journal ".pending" else ∅ : Set Cell) ∨
        cell ∈ privateCells platform journal.desktopState ∨
        cell ∈ privateCells platform journal.locatorPath ∨ cell ∈ sidecarCells platform journal ".lock" := by
    cases platform <;>
      simp [privatePaths, sidecarCells, or_and_right, exists_or]
  ext cell
  simp only [owned, Set.mem_ofPred_eq, Set.mem_union, hpaths]
  tauto

/-- A cleanup erases all its journal owns, and then the journal. -/
theorem erases_executeCleanup (h : operations.Sound platform)
    (hfree : journalPath root ∉ privatePaths platform journal ++ stubPaths journal) :
    ErasesLast Disk.get (.file (journalPath root)) (owned platform journal root)
      (executeCleanup platform operations journal root) := by
  have hprivate {path : PathBuf} (hpath : path ∈ privatePaths platform journal) :
      Cell.file (journalPath root) ∉ privateCells platform path := by
    apply not_mem_privateCells
    intro heq
    exact hfree (List.mem_append_left _ (heq ▸ hpath))
  have hpending : Cell.file (journalPath root) ∉
      (if platform = .macos then sidecarCells platform journal ".pending" else ∅ : Set Cell) := by
    split_ifs with hplatform
    · intro hmem
      obtain ⟨path, hpath, hmem⟩ := hmem
      exact hprivate (by simp [privatePaths, hplatform, Option.mem_def.mp hpath]) hmem
    · exact Set.notMem_empty _
  have hkeys : Cell.file (journalPath root) ∉ keySet platform journal.desktopId := by
    intro hmem
    obtain ⟨-, role, hrole⟩ := hmem
    cases hrole
  have hlock : Cell.file (journalPath root) ∉ sidecarCells platform journal ".lock" := by
    intro hmem
    obtain ⟨path, hpath, hmem⟩ := hmem
    exact hprivate (by simp [privatePaths, Option.mem_def.mp hpath]) hmem
  have hstub : Cell.file (journalPath root) ∉ stubCells journal := by
    intro hmem
    obtain ⟨path, hpath, hfile⟩ := hmem
    exact hfree (List.mem_append_right _ (Cell.file.inj hfile ▸ hpath))
  have hlast := ErasesLast.bind (erases_removeStub h journal) hstub (h.removePrivate (journalPath root))
  have hfromLock : ErasesLast Disk.get (.file (journalPath root))
      (sidecarCells platform journal ".lock" ∪ (stubCells journal ∪ temporaries platform (journalPath root))) (do
      operations.removePrivate (← check (replayLockPath journal.replayState))
      removeStub operations journal
      operations.removePrivate (journalPath root)) := by
    apply ErasesLast.check_bind
    intro path hpath
    rw [sidecarCells_eq (okOr_eq_ok.mp hpath)] at hlock ⊢
    exact ErasesLast.bind (h.erasesPrivate path) hlock hlast
  refine ErasesLast.congr (ErasesLast.bind (h.erasesPrivate journal.replayState)
    (hprivate (by simp [privatePaths])) (ErasesLast.bind (erases_removeReplayPending h journal) hpending
    (ErasesLast.bind (h.removeKeys journal.desktopId) hkeys
    (ErasesLast.bind (h.erasesPrivate journal.desktopState) (hprivate (by simp [privatePaths]))
    (ErasesLast.bind (h.erasesPrivate journal.locatorPath) (hprivate (by simp [privatePaths]))
      hfromLock))))) ?_
  rw [owned_eq]

end Cleanup

section Completion

variable {platform : Platform} {operations : CleanupOperations} {journal : CleanupJournal}
  {root path : PathBuf} {disk next : Disk} {S : Set Cell}

/-- The file at a path, where there is one, has an allowed access. -/
def Disk.Allows (disk : Disk) (allowed : Access → Bool) (path : PathBuf) : Prop :=
  ∀ entry, disk.files.lookup path = some entry → allowed entry.access

/-- Nothing a cleanup removes is refused by the storage functions. -/
structure Removable (platform : Platform) (journal : CleanupJournal) (root : PathBuf) (disk : Disk) :
    Prop where
  accepted : ∀ path ∈ privatePaths platform journal ++ stubPaths journal ++ [journalPath root],
    platform.accepts path
  owner : ∀ path ∈ privatePaths platform journal ++ [journalPath root], ∀ file,
    Cell.file file ∈ privateCells platform path → disk.Allows (· = .owner) file
  regular : ∀ path ∈ stubPaths journal, disk.Allows (· ≠ .other) path

theorem Disk.Allows.emptied {allowed : Access → Bool} (h : disk.Allows allowed path)
    (hemptied : Emptied Disk.get S disk next) : next.Allows allowed path := by
  intro entry hlookup
  have hheld : next.get (.file path) = some (.file entry) := by simp [Disk.get, hlookup]
  have hbefore := hemptied.get_some hheld
  simp only [Disk.get, Option.map_eq_some_iff, Held.file.injEq] at hbefore
  obtain ⟨found, hfound, rfl⟩ := hbefore
  exact h found hfound

theorem Removable.emptied (h : Removable platform journal root disk)
    (hemptied : Emptied Disk.get S disk next) : Removable platform journal root next where
  accepted := h.accepted
  owner path hpath file hfile := (h.owner path hpath file hfile).emptied hemptied
  regular path hpath := (h.regular path hpath).emptied hemptied

theorem completes_settle (failure : CleanupError) (P : Disk → Prop) :
    Completes P (settle failure) fun _ => P :=
  Completes.effect fun disk hdisk => ⟨disk, rfl, hdisk⟩

theorem completes_file (allowed : Access → Bool) (path : PathBuf) :
    Completes (fun disk => disk.Allows allowed path) (removeFile allowed path) fun _ _ => True := by
  apply Completes.effect
  intro disk h
  cases hlookup : disk.files.lookup path with
  | none => exact ⟨disk, rfl, trivial⟩
  | some entry =>
      refine ⟨{ disk with files := disk.files.erase path }, ?_, trivial⟩
      simp [Disk.erase, hlookup, h entry hlookup]

/-- Distinct directory entries, all present and private. -/
def Disk.Holds (entries : List PathBuf) (disk : Disk) : Prop :=
  entries.Nodup ∧ ∀ path ∈ entries, ∃ found, disk.files.lookup path = some found ∧ found.access = .owner

theorem completes_erase (entry : PathBuf) (entries : List PathBuf) :
    Completes (Disk.Holds (entry :: entries))
      (effect (Disk.erase (· = .owner) entry) CleanupError.storage) fun _ => Disk.Holds entries := by
  apply Completes.effect
  intro disk h
  obtain ⟨hnodup, hpresent⟩ := h
  obtain ⟨hnotin, hnodup⟩ := List.nodup_cons.mp hnodup
  obtain ⟨found, hlookup, howner⟩ := hpresent entry List.mem_cons_self
  refine ⟨{ disk with files := disk.files.erase entry }, by simp [Disk.erase, hlookup, howner],
    hnodup, ?_⟩
  intro path hpath
  have hother : path ≠ entry := fun heq => hnotin (heq ▸ hpath)
  rw [AList.lookup_erase_ne hother]
  exact hpresent path (List.mem_cons_of_mem _ hpath)

theorem completes_temporaries (platform : Platform) (path : PathBuf) :
    Completes (fun disk => ∀ file, Cell.file file ∈ temporaries platform path →
      disk.Allows (· = .owner) file) (removeTemporaries platform path) fun _ _ => True := by
  cases platform with
  | windows => exact Completes.pure' fun _ _ => trivial
  | macos =>
      apply Completes.load_bind
      intro disk
      refine Completes.bind ((Completes.forM completes_erase).weaken ?_ fun _ _ h => h) fun _ =>
        (completes_settle _ fun _ => True).weaken (fun _ _ => trivial) fun _ _ h => h
      intro next hnext
      obtain ⟨howner, rfl⟩ := hnext
      refine ⟨(AList.keys_nodup next.files).filter _, ?_⟩
      intro entry hentry
      obtain ⟨hkey, htemporary⟩ := List.mem_filter.mp hentry
      obtain ⟨found, hlookup⟩ := Option.isSome_iff_exists.mp (AList.lookup_isSome.mpr (AList.mem_keys.mpr hkey))
      have hfound := howner entry ⟨rfl, entry, rfl, htemporary⟩ found hlookup
      exact ⟨found, hlookup, of_decide_eq_true hfound⟩

/-- The operations of a cleanup complete where the storage functions do not refuse. -/
structure CleanupOperations.Complete (platform : Platform) (operations : CleanupOperations) : Prop where
  removePrivate : ∀ path, platform.accepts path →
    Completes (fun disk => ∀ file, Cell.file file ∈ privateCells platform path →
      disk.Allows (· = .owner) file) (operations.removePrivate path) fun _ _ => True
  removePublic : ∀ path, platform.accepts path →
    Completes (fun disk => disk.Allows (· ≠ .other) path) (operations.removePublic path) fun _ _ => True
  removeKeys : ∀ desktopId, Completes (fun _ => True) (operations.removeKeys desktopId) fun _ _ => True

theorem fileName_isSome_of_accepts (h : platform.accepts path) : path.fileName.isSome := by
  cases platform <;> exact (Bool.and_eq_true_iff.mp h).2

theorem validatePrivate_ok (h : platform.accepts path) : validatePrivate platform path = .ok () := by
  obtain ⟨name, hname⟩ := Option.isSome_iff_exists.mp (fileName_isSome_of_accepts h)
  obtain ⟨parent, hparent, -⟩ := PathBuf.eq_join hname
  simp [validatePrivate, ensure, hparent, h]

/-- A computation that completes leaves what survives any erasure. -/
theorem completes_keep {P Q : Disk → Prop} {x : CleanupM Unit}
    (h : Completes P x fun _ _ => True) (hx : Erases Disk.get S x) (hQP : ∀ disk, Q disk → P disk)
    (hQ : ∀ disk next, Q disk → Emptied Disk.get S disk next → Q next) :
    Completes Q x fun _ => Q := by
  intro disk hdisk
  obtain ⟨u, next, hrun, -⟩ := h disk (hQP disk hdisk)
  have hends := hx.ends disk []
  rw [hrun] at hends
  exact ⟨u, next, hrun, hQ disk next hdisk hends⟩

theorem nativeCleanupOperations_complete (platform : Platform) :
    (nativeCleanupOperations platform).Complete platform where
  removePrivate path haccepts := by
    simp only [nativeCleanupOperations, validatePrivate_ok haccepts, check_ok, pure_bind_eq]
    refine Completes.bind (completes_keep (completes_temporaries platform path)
      (erases_temporaries platform path) ?_ ?_) fun _ =>
        (completes_file _ path).weaken (fun disk h => h path (Set.mem_insert _ _)) fun _ _ h => h
    · intro disk h file hfile
      exact h file (Set.mem_insert_of_mem _ hfile)
    · intro disk next h hemptied file hfile
      exact (h file hfile).emptied hemptied
  removePublic path haccepts := by
    simp only [nativeCleanupOperations, ensure, haccepts, if_true, check_ok, pure_bind_eq]
    exact completes_file _ path
  removeKeys desktopId := by
    cases platform with
    | macos => exact Completes.pure' fun _ _ => trivial
    | windows =>
        have hsigning : Completes (fun _ => True) (removeKey desktopId .signing)
            fun _ disk => (desktopId, .signing) ∉ disk.keys :=
          Completes.effect fun disk _ => ⟨_, rfl, Finset.notMem_erase _ _⟩
        have hselection : Completes (fun disk => (desktopId, .signing) ∉ disk.keys)
            (removeKey desktopId .selection)
            fun _ disk => (desktopId, .signing) ∉ disk.keys ∧ (desktopId, .selection) ∉ disk.keys := by
          refine Completes.effect fun disk h => ⟨_, rfl, ?_, Finset.notMem_erase _ _⟩
          exact fun hmem => h (Finset.mem_of_mem_erase hmem)
        refine hsigning.bind fun _ => hselection.bind fun _ => ?_
        exact Completes.effect fun disk h => ⟨disk, by simp [h.1, h.2], trivial⟩

theorem checkedMacosCleanupOperations_complete : checkedMacosCleanupOperations.Complete .macos where
  removePrivate path haccepts :=
    Completes.bind (completes_settle _ _) fun _ =>
      (nativeCleanupOperations_complete .macos).removePrivate path haccepts
  removePublic path haccepts :=
    Completes.bind (completes_settle _ _) fun _ =>
      (nativeCleanupOperations_complete .macos).removePublic path haccepts
  removeKeys desktopId :=
    Completes.bind (completes_settle _ _) fun _ =>
      (nativeCleanupOperations_complete .macos).removeKeys desktopId

theorem cleanupOperations_complete (platform : Platform) :
    (cleanupOperations platform).Complete platform := by
  cases platform with
  | windows => exact nativeCleanupOperations_complete .windows
  | macos => exact checkedMacosCleanupOperations_complete

theorem completes_sidecar {suffix : String} {k : PathBuf → CleanupM Unit} {post : Unit → Disk → Prop}
    (h : ∀ path ∈ journal.replayState.sidecar suffix,
      Completes (Removable platform journal root) (k path) post) :
    Completes (Removable platform journal root)
      (check (okOr (journal.replayState.sidecar suffix) .invalidTarget) >>= k) post := by
  intro disk hdisk
  have haccepts := hdisk.accepted journal.replayState (by simp [privatePaths])
  obtain ⟨path, hpath⟩ := Option.isSome_iff_exists.mp
    (PathBuf.sidecar_isSome suffix (fileName_isSome_of_accepts haccepts))
  rw [hpath]
  exact h path hpath disk hdisk

/-- Where nothing is refused, an attempt without faults completes. -/
theorem completes_executeCleanup (hsound : operations.Sound platform)
    (h : operations.Complete platform) :
    Completes (Removable platform journal root) (executeCleanup platform operations journal root)
      fun _ => Removable platform journal root := by
  have hprivate {path : PathBuf} (hpath : path ∈ privatePaths platform journal ++ [journalPath root]) :
      Completes (Removable platform journal root) (operations.removePrivate path)
        fun _ => Removable platform journal root := by
    intro disk hdisk
    have haccepts : platform.accepts path := by
      apply hdisk.accepted
      simp only [List.mem_append] at hpath ⊢
      tauto
    exact completes_keep (h.removePrivate path haccepts) (hsound.erasesPrivate path)
      (fun disk hdisk => hdisk.owner path hpath) (fun disk next h hemptied => h.emptied hemptied) disk hdisk
  have hpending : Completes (Removable platform journal root)
      (removeReplayPending platform operations journal) fun _ => Removable platform journal root := by
    cases hplatform : platform with
    | windows => exact Completes.pure' fun _ h => h
    | macos =>
        subst hplatform
        apply completes_sidecar
        intro path hpath
        exact hprivate (by simp [privatePaths, Option.mem_def.mp hpath])
  have hkeys : Completes (Removable platform journal root) (operations.removeKeys journal.desktopId)
      fun _ => Removable platform journal root :=
    completes_keep (h.removeKeys journal.desktopId) (hsound.removeKeys journal.desktopId)
      (fun _ _ => trivial) fun disk next h hemptied => h.emptied hemptied
  have hstub : Completes (Removable platform journal root) (removeStub operations journal)
      fun _ => Removable platform journal root := by
    cases hpaired : journal.paired with
    | none =>
        simp only [removeStub, hpaired]
        exact Completes.pure' fun _ h => h
    | some pair =>
        have hmem : pair.2 ∈ stubPaths journal := by simp [stubPaths, hpaired]
        simp only [removeStub, hpaired]
        intro disk hdisk
        have haccepts := hdisk.accepted pair.2 (by simp [hmem])
        exact completes_keep (h.removePublic pair.2 haccepts) (hsound.removePublic pair.2)
          (fun disk hdisk => hdisk.regular pair.2 hmem) (fun disk next h hemptied => h.emptied hemptied)
          disk hdisk
  refine (hprivate (by simp [privatePaths])).bind fun _ => hpending.bind fun _ => hkeys.bind fun _ =>
    (hprivate (by simp [privatePaths])).bind fun _ => (hprivate (by simp [privatePaths])).bind fun _ => ?_
  apply completes_sidecar
  intro path hpath
  exact (hprivate (by simp [privatePaths, Option.mem_def.mp hpath])).bind fun _ => hstub.bind fun _ =>
    hprivate (by simp)

end Completion

section Convergence

/-- A journal macOS accepts is none of the files it owns. -/
theorem journal_not_owned {journal : CleanupJournal} {root : PathBuf}
    (h : journal.validateMacosRoot root = .ok ()) :
    journalPath root ∉ privatePaths .macos journal ++ stubPaths journal := by
  simp only [CleanupJournal.validateMacosRoot, bind_eq_ok, ensure_eq_ok, okOr_eq_ok] at h
  obtain ⟨_, hprivate, _, -, name, hname, _, -, hstub⟩ := h
  obtain ⟨-, -, hprivate, -⟩ := hprivate
  have hreplay := hprivate journal.replayState (by simp)
  have hsidecar (suffix : String) : journal.replayState.sidecar suffix = some (root.join (name ++ utf8 suffix)) := by
    simp [PathBuf.sidecar, hname, hreplay.1]
  have hsuffix {suffix : String} (hlast : (utf8 suffix).getLast? ≠ (utf8 journalName).getLast?)
      (hpresent : utf8 suffix ≠ []) : journalPath root ≠ root.join (name ++ utf8 suffix) := by
    intro heq
    have hnames := congrArg PathBuf.fileName heq
    simp only [journalPath, PathBuf.fileName_join, Option.some.injEq] at hnames
    rw [hnames, List.getLast?_append_of_ne_nil _ hpresent] at hlast
    exact hlast rfl
  intro hmem
  simp only [privatePaths, if_pos, hsidecar, Option.toList_some, List.mem_append, List.mem_cons,
    List.not_mem_nil, or_false] at hmem
  have hreserved {path : PathBuf}
      (hpath : path ∈ [journal.locatorPath, journal.desktopState, journal.replayState]) :
      journalPath root ≠ path := by
    intro heq
    exact (hprivate path hpath).2.2 (heq ▸ List.mem_cons_self)
  rcases hmem with (((hmem | hmem) | hmem | hmem) | hmem) | hmem
  · exact hreserved (by simp) hmem
  · exact hsuffix (by decide) (by decide) hmem
  · exact hreserved (by simp) hmem
  · exact hreserved (by simp) hmem
  · exact hsuffix (by decide) (by decide) hmem
  · have hpath := (hstub (journalPath root) (Option.mem_toList.mp hmem)).2.2.1
    exact hpath List.mem_cons_self

/-- Any attempts, each under its own faults, keep the journal while anything it owns is left and touch
nothing else. The attempt that returns has removed all of it, and where nothing is refused an attempt
without faults returns. A fault may stop an attempt at any step, so `reached` is any point of a run. -/
theorem interrupted_cleanup_converges (platform : Platform) (journal : CleanupJournal) (root : PathBuf)
    (hfree : journalPath root ∉ privatePaths platform journal ++ stubPaths journal) (disk : Disk)
    (schedules : List (List Fault)) :
    let cleanup := executeCleanup platform (cleanupOperations platform) journal root
    let all := insert (Cell.file (journalPath root)) (owned platform journal root)
    let reached := tries cleanup disk schedules
    (∀ cell ∉ all, reached.get cell = disk.get cell) ∧
      (reached.get (.file (journalPath root)) = disk.get (.file (journalPath root)) ∨
        ∀ cell ∈ owned platform journal root, reached.get cell = none) ∧
      (∀ faults u, (cleanup reached faults).value = .ok u →
        (∀ cell ∈ all, (cleanup reached faults).store.get cell = none) ∧
        ∀ cell ∉ all, (cleanup reached faults).store.get cell = disk.get cell) ∧
      (Removable platform journal root disk → (cleanup reached []).value = .ok ()) := by
  intro cleanup all reached
  have hsound := cleanupOperations_sound platform
  have herases : ErasesLast Disk.get (.file (journalPath root)) (owned platform journal root) cleanup :=
    erases_executeCleanup hsound hfree
  have hreached : Emptied Disk.get all disk reached := herases.erases.tries disk schedules
  refine ⟨fun cell hcell => hreached.get_eq hcell, herases.tries disk schedules, ?_, ?_⟩
  · intro faults u hok
    have hlast := herases.erases.ends reached faults
    refine ⟨herases.erases.gone_of_ok hok, fun cell hcell => ?_⟩
    rw [hlast.get_eq hcell, hreached.get_eq hcell]
  · intro hremovable
    obtain ⟨u, next, hrun, -⟩ := completes_executeCleanup hsound (cleanupOperations_complete platform)
      reached (hremovable.emptied hreached)
    exact congrArg Outcome.value hrun

section Sample

def sampleRoot : PathBuf := ⟨some "/", [.normal (utf8 "config")]⟩

def sampleIdentity : Id := Bytes.replicate 16 2

def sampleJournal : CleanupJournal where
  target := .orphan (Bytes.replicate 16 1) sampleIdentity (Bytes.replicate 32 4)
  locatorPath := sampleRoot.join (utf8 (hex sampleIdentity.val ++ ".cbor"))
  desktopState := sampleRoot.join (utf8 "desktop.state")
  replayState := sampleRoot.join (utf8 "replay.state")

def sampleEntry : DirectoryEntry := ⟨.owner, utf8 "state"⟩

def sampleTemporary : PathBuf :=
  sampleRoot.join (temporaryPrefix (utf8 "desktop.state") ++ utf8 "1-0.tmp")

/-- The private files, the journal and an interrupted replacement of the desktop state. -/
def sampleDisk : Disk where
  files := [sampleJournal.locatorPath, sampleJournal.desktopState, sampleJournal.replayState,
    sampleTemporary, journalPath sampleRoot].foldl (fun files path => files.insert path sampleEntry) ∅
  keys := {(sampleJournal.desktopId, .signing), (sampleJournal.desktopId, .selection)}

/-- The removal of the desktop state reports a failure, and the next attempt stops after that of the
locator. -/
def sampleSchedules : List (List Fault) :=
  [List.replicate 10 .none ++ [.failed true], List.replicate 12 .none ++ [.stopped true]]

theorem sample_accepted : sampleJournal.validateMacosRoot sampleRoot = .ok () := by
  decide +kernel

theorem sample_cleanup_converges :
    let cleanup := executeCleanup .macos (cleanupOperations .macos) sampleJournal sampleRoot
    let reached := tries cleanup sampleDisk sampleSchedules
    reached.get (.file sampleJournal.locatorPath) = none ∧
      reached.get (.file (journalPath sampleRoot)) = some (.file sampleEntry) ∧
      (cleanup reached []).value = .ok () ∧
      (cleanup reached []).store.get (.file (journalPath sampleRoot)) = none := by
  intro cleanup reached
  have hok : (cleanup reached []).value = .ok () := by decide +kernel
  have hconverges := interrupted_cleanup_converges .macos sampleJournal sampleRoot
    (journal_not_owned sample_accepted) sampleDisk sampleSchedules
  refine ⟨by decide +kernel, by decide +kernel, hok, ?_⟩
  exact (hconverges.2.2.1 [] () hok).1 _ (Set.mem_insert _ _)

/-- The attempt removes a replacement temporary besides the files of the journal. A journal whose
desktop state is its own path is removed before the locator, and a disk may lack a journal from the
start. -/
theorem cleanup_exceeds_journal :
    (sampleJournal.validateMacosRoot sampleRoot = .ok () ∧
      sampleTemporary ∉ privatePaths .macos sampleJournal ++ [journalPath sampleRoot] ∧
      (executeCleanup .macos (cleanupOperations .macos) sampleJournal sampleRoot sampleDisk []).value
        = .ok () ∧
      sampleDisk.files.lookup sampleTemporary = some sampleEntry ∧
      (executeCleanup .macos (cleanupOperations .macos) sampleJournal sampleRoot sampleDisk
        []).store.files.lookup sampleTemporary = none) ∧
    (let journal := { sampleJournal with desktopState := journalPath sampleRoot }
      let stopped := executeCleanup .windows (cleanupOperations .windows) journal sampleRoot sampleDisk
        [.none, .none, .none, .none, .stopped true]
      journal.pathsAreValid = true ∧ stopped.store.files.lookup (journalPath sampleRoot) = none ∧
        stopped.store.files.lookup journal.locatorPath = some sampleEntry) ∧
    let disk := { sampleDisk with files := sampleDisk.files.erase (journalPath sampleRoot) }
    let stopped := executeCleanup .windows (cleanupOperations .windows) sampleJournal sampleRoot disk
      [.stopped false]
    stopped.store.files.lookup (journalPath sampleRoot) = none ∧
      stopped.store.files.lookup sampleJournal.replayState = some sampleEntry := by
  refine ⟨?_, ?_, ?_⟩
  · exact ⟨sample_accepted, by decide +kernel⟩
  · decide +kernel
  · decide +kernel

end Sample

end Convergence

end AgePluginPhone.Desktop
