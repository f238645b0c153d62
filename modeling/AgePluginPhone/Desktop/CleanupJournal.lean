import AgePluginPhone.Desktop.PairingStub

/-!
# The cleanup journal

The record of what a cleanup removes: the private paths of one pairing and, while its stub is known,
the public path of the stub. On macOS a journal is used only when its paths pass `validateMacosRoot`.
-/

namespace AgePluginPhone.Desktop

open Library AgePluginPhone.Core

section Paths

inductive Component
  | normal (name : List Byte)
  | parentDir
  deriving DecidableEq

/-- A path: the root it starts at, if it does, and the components after it. -/
structure PathBuf where
  root : Option String
  components : List Component
  deriving DecidableEq

namespace PathBuf

def isAbsolute (path : PathBuf) : Bool := path.root.isSome

def fileName (path : PathBuf) : Option (List Byte) :=
  match path.components.getLast? with
  | some (.normal name) => some name
  | _ => none

def parent (path : PathBuf) : Option PathBuf :=
  if path.components = [] then none
  else some { path with components := path.components.dropLast }

def join (path : PathBuf) (name : List Byte) : PathBuf :=
  { path with components := path.components ++ [.normal name] }

/-- The path beside this one whose name has a further suffix. -/
def sidecar (path : PathBuf) (suffix : String) : Option PathBuf := do
  let name ← path.fileName
  let parent ← path.parent
  return parent.join (name ++ utf8 suffix)

@[simp] theorem fileName_join (path : PathBuf) (name : List Byte) :
    (path.join name).fileName = some name := by
  simp [fileName, join]

@[simp] theorem parent_join (path : PathBuf) (name : List Byte) :
    (path.join name).parent = some path := by
  simp [parent, join]

/-- A path with a name is that name in its parent. -/
theorem eq_join {path : PathBuf} {name : List Byte} (h : path.fileName = some name) :
    ∃ parent, path.parent = some parent ∧ path = parent.join name := by
  obtain ⟨root, components⟩ := path
  rcases List.eq_nil_or_concat components with rfl | hconcat
  · cases h
  · obtain ⟨init, last, rfl⟩ := hconcat
    cases last with
    | parentDir => simp [fileName] at h
    | normal found =>
        obtain rfl : found = name := by simpa [fileName] using h
        exact ⟨⟨root, init⟩, by simp [parent], by simp [join]⟩

theorem sidecar_isSome {path : PathBuf} (suffix : String) (h : path.fileName.isSome) :
    (path.sidecar suffix).isSome := by
  obtain ⟨name, hname⟩ := Option.isSome_iff_exists.mp h
  obtain ⟨parent, hparent, -⟩ := eq_join hname
  simp [sidecar, hname, hparent]

end PathBuf

end Paths

inductive CleanupTarget
  | paired (stub : PublicIdentityStub) (stubPath : PathBuf)
  | orphan (desktopId identityId : Id) (transcriptFingerprint : ProtocolDigest)
  deriving DecidableEq

structure CleanupJournal where
  target : CleanupTarget
  locatorPath : PathBuf
  desktopState : PathBuf
  replayState : PathBuf
  deriving DecidableEq

inductive JournalError
  | invalid
  | pending
  | storage
  deriving DecidableEq

def journalName : String := "desktop-cleanup.cbor"

def journalPath (root : PathBuf) : PathBuf := root.join (utf8 journalName)

def journalLockPath (root : PathBuf) : PathBuf := root.join (utf8 "desktop-cleanup.lock")

/-- The journal of a setup in the same root. -/
def setupJournalPath (root : PathBuf) : PathBuf := root.join (utf8 "desktop-setup.cbor")

namespace CleanupJournal

def paired (journal : CleanupJournal) : Option (PublicIdentityStub × PathBuf) :=
  match journal.target with
  | .paired stub stubPath => some (stub, stubPath)
  | .orphan _ _ _ => none

def desktopId (journal : CleanupJournal) : Id :=
  match journal.target with
  | .paired stub _ => stub.desktopId
  | .orphan desktopId _ _ => desktopId

def identityId (journal : CleanupJournal) : Id :=
  match journal.target with
  | .paired stub _ => stub.identityId
  | .orphan _ identityId _ => identityId

def pathsAreValid (journal : CleanupJournal) : Bool :=
  ([journal.locatorPath, journal.desktopState, journal.replayState] ++
    (journal.paired.map Prod.snd).toList).all fun path => path.isAbsolute && path.fileName.isSome

def canonical (path : PathBuf) : Bool :=
  path.isAbsolute && path.components.all fun part =>
    match part with
    | .normal _ => true
    | .parentDir => false

/-- `validate_macos_root`. -/
def validateMacosRoot (journal : CleanupJournal) (root : PathBuf) : Except JournalError Unit := do
  let privatePaths := [journal.locatorPath, journal.desktopState, journal.replayState]
  let reserved := [journalPath root, journalLockPath root, setupJournalPath root]
  ensure (canonical root ∧ journal.pathsAreValid ∧
    (∀ path ∈ privatePaths, path.parent = some root ∧ canonical path ∧ path ∉ reserved) ∧
    journal.desktopState ≠ journal.replayState ∧ journal.locatorPath ≠ journal.desktopState ∧
    journal.locatorPath ≠ journal.replayState) .invalid
  let identity := hex journal.identityId.val
  let desktop := hex journal.desktopId.val
  ensure (journal.locatorPath = root.join (utf8 (identity ++ "-" ++ desktop ++ ".cbor")) ∨
    journal.locatorPath = root.join (utf8 (identity ++ ".cbor"))) .invalid
  let replayName ← okOr journal.replayState.fileName .invalid
  let sidecars := [root.join (replayName ++ utf8 ".lock"), root.join (replayName ++ utf8 ".pending")]
  ensure (journal.desktopState ∉ sidecars ∧ journal.locatorPath ∉ sidecars) .invalid
  ensure (∀ stubPath ∈ journal.paired.map Prod.snd, canonical stubPath ∧ stubPath ∉ privatePaths ∧
    stubPath ∉ reserved ∧ stubPath ∉ sidecars) .invalid

end CleanupJournal

end AgePluginPhone.Desktop
