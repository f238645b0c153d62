import AgePluginPhone.Core.MacReplayGuard
import AgePluginPhone.Desktop.ExplicitPaths
import AgePluginPhone.Library.Transducer

/-!
# The file names of a replay store

`FileReplayGuard` of `replay_macos.rs` over the names it derives from one path, in a directory whose
file system refuses a step only for the name it is given.
-/

namespace AgePluginPhone.Desktop.ReplayStorage

open Library AgePluginPhone.Core AsciiText

section Directory

/-- `Error` of the platform storage. -/
inductive StorageError
  | missing
  | alreadyExists
  | invalid
  | storage
  deriving DecidableEq

/-- The files of a private directory and the names of those that are locked. -/
structure Directory where
  files : List Byte → Option (List Byte)
  locked : Finset (List Byte)

def slash : Byte := 47

/-- A single component that is no directory reference, without a zero byte. -/
def FileName (name : List Byte) : Prop :=
  name ≠ [] ∧ name ≠ utf8 "." ∧ name ≠ utf8 ".." ∧ slash ∉ name ∧ 0 ∉ name

instance (name : List Byte) : Decidable (FileName name) := inferInstanceAs (Decidable (_ ∧ _))

/-- `name` of the platform storage. -/
def checkName (name : List Byte) : Except StorageError Unit := ensure (FileName name) .invalid

/-- The file system takes names of 1 to 255 bytes. -/
def maxNameBytes : ℕ := 255

/-- `open_at` of a name, existing or not. -/
def openAt (name : List Byte) : Except StorageError Unit :=
  ensure (name.length ≤ maxNameBytes) .storage

def bounded (bytes : List Byte) : Except StorageError Unit :=
  ensure (bytes.length ≤ maxStateBytes) .invalid

namespace Directory

def setFile (d : Directory) (name : List Byte) (content : Option (List Byte)) : Directory :=
  { d with files := Function.update d.files name content }

def openFile (d : Directory) (name : List Byte) : Except StorageError (List Byte) := do
  checkName name
  openAt name
  okOr (d.files name) .missing

def read (d : Directory) (child : List Byte) (max : ℕ) : Except StorageError (List Byte) := do
  ensure (max ≤ maxStateBytes) .invalid
  let content ← d.openFile child
  ensure (content.length ≤ max) .invalid
  ensure (content ≠ []) .invalid
  return content

def create (d : Directory) (child bytes : List Byte) : Except StorageError Directory := do
  bounded bytes
  checkName child
  openAt child
  ensure (d.files child = none) .alreadyExists
  return d.setFile child (some bytes)

/-- A rename over the existing file. -/
def rename (d : Directory) (source target : List Byte) : Directory :=
  (d.setFile target (d.files source)).setFile source none

/-- The temporary is named by the process and a counter of its replacements. -/
def replace (d : Directory) (process counter : ℕ) (child bytes : List Byte) :
    Except StorageError Directory := do
  bounded bytes
  let _ ← d.openFile child
  let temp := temporaryName child process counter
  openAt temp
  ensure (d.files temp = none) .alreadyExists
  return (d.setFile temp (some bytes)).rename temp child

def remove (d : Directory) (child : List Byte) : Except StorageError Directory := do
  let _ ← d.openFile child
  return d.setFile child none

/-- The lock file is created when it is missing, and its lock is not waited for. -/
def lock (d : Directory) (child : List Byte) : Except StorageError Directory := do
  checkName child
  openAt child
  ensure (child ∉ d.locked) .storage
  return { d.setFile child (some ((d.files child).getD [])) with locked := insert child d.locked }

/-- `PrivateLock::validate`. -/
def validateLock (d : Directory) (child : List Byte) : Except StorageError Directory := do
  let _ ← d.openFile child
  return d

end Directory

end Directory

section Guard

/-- A guard with the names it derives from its path. -/
structure NamedGuard extends FileReplayGuard where
  child : List Byte
  pending : List Byte
  lock : List Byte

structure World where
  directory : Directory
  guard : Option NamedGuard

/-- A directory whose lock is taken, with the names of the store. -/
structure OpenStorage where
  directory : Directory
  child : List Byte
  pending : List Byte
  lock : List Byte

def OpenStorage.guard (opened : OpenStorage) (state : ReplayState) (capacity : ℕ) : NamedGuard :=
  { state, capacity, poisoned := false, child := opened.child, pending := opened.pending,
    lock := opened.lock }

/-- `open_storage`, in the directory of the path. -/
def openStorage (path : PathBuf) (d : Directory) : Except ProtocolError OpenStorage := do
  let _ ← okOr path.parent .replayState
  let child ← okOr path.fileName .replayState
  let pending := child ++ utf8 ".pending"
  let lock := child ++ utf8 ".lock"
  let directory ← (d.lock lock).mapError fun _ => .replayState
  ensure (directory.read pending 64 = .error .missing) .replayState
  return { directory, child, pending, lock }

def createGuard (path : PathBuf) (scope : ReplayScope) (capacity : ℕ) (nowUnix : U64)
    (d : Directory) : Except ProtocolError World := do
  validateCapacity capacity
  let opened ← openStorage path d
  let state := ReplayState.new scope nowUnix
  let created ← (opened.directory.create opened.child state.encode).mapError fun _ => .replayState
  return ⟨created, some (opened.guard state capacity)⟩

def openGuard (m : Minicbor) (path : PathBuf) (expectedScope : ReplayScope) (capacity : ℕ)
    (d : Directory) : Except ProtocolError World := do
  validateCapacity capacity
  let opened ← openStorage path d
  let encoded ← (opened.directory.read opened.child maxStateBytes).mapError fun _ => .replayState
  let state ← ReplayState.decode m encoded capacity
  ensure (state.scope = expectedScope) .replayState
  return ⟨opened.directory, some (opened.guard state capacity)⟩

/-- Steps one after another, up to the first that fails. -/
def runSteps : List (Directory → Except StorageError Directory) → Directory →
    Except StorageError Unit × Directory
  | [], d => (.ok (), d)
  | step :: steps, d =>
      match step d with
      | .ok next => runSteps steps next
      | .error failure => (.error failure, d)

def NamedGuard.commitSteps (g : NamedGuard) (process counter : ℕ) (next : ReplayState) :
    List (Directory → Except StorageError Directory) :=
  [fun d => d.validateLock g.lock, fun d => d.create g.pending (utf8 "pending"),
    fun d => d.replace process counter g.child next.encode, fun d => d.validateLock g.lock,
    fun d => d.remove g.pending]

def NamedGuard.commit (g : NamedGuard) (process counter : ℕ) (next : ReplayState) (d : Directory) :
    Except ProtocolError Unit × World :=
  if g.poisoned then (.error .replayState, ⟨d, some g⟩)
  else
    match runSteps (g.commitSteps process counter next) d with
    | (.ok _, after) => (.ok (), ⟨after, some { g with state := next }⟩)
    | (.error _, after) => (.error .replayState, ⟨after, some { g with poisoned := true }⟩)

/-- The common body of the two trait methods, from what the state makes of the call. -/
def NamedGuard.consumeWith (g : NamedGuard) (next : Except ProtocolError ReplayState)
    (process counter : ℕ) (d : Directory) : Except ProtocolError Unit × World :=
  if g.poisoned then (.error .replayState, ⟨d, some g⟩)
  else
    match next with
    | .error failure => (.error failure, ⟨d, some g⟩)
    | .ok next => g.commit process counter next d

inductive Call
  | consumeRequest (desktopId identityId requestId : Id) (nonce : ProtocolNonce)
      (expiresAtUnix nowUnix : U64)
  | consumeResponse (desktopId identityId : Id) (digest : ProtocolDigest)
      (expiresAtUnix nowUnix : U64)
  | «open» (expectedScope : ReplayScope) (capacity : ℕ)
  | drop

/-- A call, in a process that has counted so many replacements. -/
structure Event where
  call : Call
  process : ℕ
  counter : ℕ

/-- What the state of a guard makes of a consumption. -/
def NamedGuard.consume (g : NamedGuard) : Call → Option (Except ProtocolError ReplayState)
  | .consumeRequest desktopId identityId requestId nonce expires now =>
      some (g.state.consumeRequest ⟨.phoneRequests, desktopId, identityId⟩ requestId nonce expires now
        g.capacity)
  | .consumeResponse desktopId identityId digest expires now =>
      some (g.state.consumeResponse ⟨.desktopResponses, desktopId, identityId⟩ digest expires now
        g.capacity)
  | _ => none

/-- The guard goes with its lock. -/
def World.drop (w : World) : World :=
  match w.guard with
  | none => w
  | some g => ⟨{ w.directory with locked := w.directory.locked.erase g.lock }, none⟩

/-- One call on the store at a path; a consumption needs a guard to be called on. -/
def World.respond (m : Minicbor) (path : PathBuf) (w : World) (e : Event) :
    Option (Except ProtocolError Unit) × World :=
  match e.call with
  | .open expectedScope capacity =>
      match openGuard m path expectedScope capacity w.directory with
      | .ok opened => (some (.ok ()), opened)
      | .error failure => (some (.error failure), w)
  | .drop => (none, w.drop)
  | call =>
      match w.guard with
      | none => (none, w)
      | some g =>
          match g.consume call with
          | none => (none, w)
          | some next =>
              let consumed := g.consumeWith next e.process e.counter w.directory
              (some consumed.1, consumed.2)

end Guard

section Claims

variable (m : Minicbor) (path : PathBuf)

/-- A consumption that the state of the held guard accepts. -/
def Accepts (w : World) (e : Event) (g : NamedGuard) (next : ReplayState) : Prop :=
  w.guard = some g ∧ g.consume e.call = some (.ok next)

/-- What the state accepts is committed, without a marker left behind, and is what a guard opened
later has. -/
def Commits (w : World) (e : Event) : Prop :=
  ∀ g next, Accepts w e g next →
    ∃ after, w.respond m path e = (some (.ok ()), after) ∧ after.directory.files g.pending = none ∧
      ∃ reopened, openGuard m path next.scope g.capacity after.drop.directory = .ok reopened ∧
        reopened.guard = some { g with state := next }

def digits (n : ℕ) : ℕ := (Nat.toDigits 10 n).length

/-- The name of the temporary of a replacement is one the file system takes. -/
def Fits (child : List Byte) (e : Event) : Prop :=
  2 * child.length + digits e.process + digits e.counter ≤ 240

end Claims

section Names

variable {child : List Byte}

theorem temporaryName_length (child : List Byte) (process counter : ℕ) :
    (temporaryName child process counter).length =
      15 + 2 * child.length + digits process + digits counter := by
  have hstart : (utf8 ".replace-").length = 9 := by decide
  have hend : (utf8 ".tmp").length = 4 := by decide
  have hdigits (n : ℕ) : (utf8 (toString n)).length = digits n := by
    rw [utf8_decimal, List.length_map, digits]
  rw [temporaryName_eq]
  simp only [List.length_append, List.length_cons, hstart, hend, hdigits, utf8_hex_length]
  omega

theorem openAt_temporary (e : Event) :
    openAt (temporaryName child e.process e.counter) = .ok () ↔ Fits child e := by
  rw [openAt, ensure_eq_ok, temporaryName_length, Fits, maxNameBytes]
  omega

theorem FileName.append {suffix : List Byte} (h : FileName child) (hlong : 2 < suffix.length)
    (hslash : slash ∉ suffix) (hzero : 0 ∉ suffix) : FileName (child ++ suffix) := by
  have hone : (utf8 ".").length = 1 := by decide
  have htwo : (utf8 "..").length = 2 := by decide
  have hlength : (child ++ suffix).length = child.length + suffix.length := List.length_append
  refine ⟨fun hnil => h.1 (List.append_eq_nil_iff.mp hnil).1, ?_, ?_, ?_, ?_⟩
  · intro hdot
    rw [hdot, hone] at hlength
    omega
  · intro hdots
    rw [hdots, htwo] at hlength
    omega
  · simp [h.2.2.2.1, hslash]
  · simp [h.2.2.2.2, hzero]

theorem FileName.pending (h : FileName child) : FileName (child ++ utf8 ".pending") :=
  h.append (by decide) (by decide) (by decide)

theorem FileName.lock (h : FileName child) : FileName (child ++ utf8 ".lock") :=
  h.append (by decide) (by decide) (by decide)

/-- The names of a store differ from each other and from those of its temporaries. -/
theorem names_distinct (child : List Byte) (process counter : ℕ) :
    child ++ utf8 ".pending" ≠ child ∧ child ++ utf8 ".lock" ≠ child ∧
      child ++ utf8 ".pending" ≠ child ++ utf8 ".lock" ∧
      temporaryName child process counter ≠ child ∧
      temporaryName child process counter ≠ child ++ utf8 ".pending" ∧
      temporaryName child process counter ≠ child ++ utf8 ".lock" := by
  have hpending : (child ++ utf8 ".pending").length = child.length + 8 := by
    rw [List.length_append]
    rfl
  have hlock : (child ++ utf8 ".lock").length = child.length + 5 := by
    rw [List.length_append]
    rfl
  have htemporary := temporaryName_length child process counter
  refine ⟨?_, ?_, ?_, ?_, ?_, ?_⟩ <;> intro h <;> have hlength := congrArg List.length h <;> omega

end Names

section Steps

variable {d after : Directory} {name content bytes : List Byte} {max process counter : ℕ}

@[simp] theorem Directory.setFile_files (d : Directory) (name : List Byte) (content : Option (List Byte))
    (other : List Byte) :
    (d.setFile name content).files other = if other = name then content else d.files other := by
  simp [Directory.setFile, Function.update_apply]

@[simp] theorem Directory.setFile_locked (d : Directory) (name : List Byte)
    (content : Option (List Byte)) : (d.setFile name content).locked = d.locked := rfl

theorem openFile_eq_ok : d.openFile name = .ok content ↔
    FileName name ∧ name.length ≤ maxNameBytes ∧ d.files name = some content := by
  simp [Directory.openFile, checkName, openAt, bind_eq_ok]

theorem read_eq_ok : d.read name max = .ok content ↔ max ≤ maxStateBytes ∧
    (FileName name ∧ name.length ≤ maxNameBytes ∧ d.files name = some content) ∧
      content.length ≤ max ∧ content ≠ [] := by
  simp only [Directory.read, bind_eq_ok, ensure_eq_ok, openFile_eq_ok, pure_eq_ok, Except.ok.injEq,
    exists_const]
  constructor
  · intro h
    obtain ⟨hmax, found, hfile, hlength, hne, rfl⟩ := h
    exact ⟨hmax, hfile, hlength, hne⟩
  · intro h
    exact ⟨h.1, content, h.2.1, h.2.2.1, h.2.2.2, rfl⟩

theorem read_eq_missing : d.read name max = .error .missing ↔
    max ≤ maxStateBytes ∧ FileName name ∧ name.length ≤ maxNameBytes ∧ d.files name = none := by
  simp [Directory.read, Directory.openFile, checkName, openAt, bind_eq_error, okOr_eq_error]

theorem create_eq_ok : d.create name bytes = .ok after ↔ bytes.length ≤ maxStateBytes ∧
    FileName name ∧ name.length ≤ maxNameBytes ∧ d.files name = none ∧
      after = d.setFile name (some bytes) := by
  simp [Directory.create, bounded, checkName, openAt, bind_eq_ok, eq_comm (a := after)]

theorem replace_eq_ok : d.replace process counter name bytes = .ok after ↔
    bytes.length ≤ maxStateBytes ∧ (∃ content, d.openFile name = .ok content) ∧
      openAt (temporaryName name process counter) = .ok () ∧
      d.files (temporaryName name process counter) = none ∧
      after = (d.setFile (temporaryName name process counter) (some bytes)).rename
        (temporaryName name process counter) name := by
  simp [Directory.replace, bounded, openAt, bind_eq_ok, eq_comm (a := after)]

theorem remove_eq_ok : d.remove name = .ok after ↔
    (∃ content, d.openFile name = .ok content) ∧ after = d.setFile name none := by
  simp [Directory.remove, bind_eq_ok, eq_comm (a := after)]

theorem validateLock_eq_ok : d.validateLock name = .ok after ↔
    (∃ content, d.openFile name = .ok content) ∧ after = d := by
  simp [Directory.validateLock, bind_eq_ok, eq_comm (a := after)]

theorem lock_eq_ok : d.lock name = .ok after ↔ FileName name ∧ name.length ≤ maxNameBytes ∧
    name ∉ d.locked ∧
      after = { d.setFile name (some ((d.files name).getD [])) with locked := insert name d.locked } := by
  simp [Directory.lock, checkName, openAt, bind_eq_ok, eq_comm (a := after)]

end Steps

section Ready

/-- A guard that can commit, on the store with the given name. -/
structure Held (child : List Byte) (d : Directory) (g : NamedGuard) : Prop where
  names : g.child = child ∧ g.pending = child ++ utf8 ".pending" ∧ g.lock = child ++ utf8 ".lock"
  usable : g.poisoned = false
  capacity : 1 ≤ g.capacity ∧ g.capacity ≤ maxConfiguredEntries
  wellFormed : g.state.WellFormed
  file : (d.files child).isSome

/-- A store without a marker, whose guard can commit. -/
structure Ready (child : List Byte) (w : World) : Prop where
  name : FileName child
  short : child.length + 8 ≤ maxNameBytes
  marker : w.directory.files (child ++ utf8 ".pending") = none
  lockFile : (w.directory.files (child ++ utf8 ".lock")).isSome
  free : ∀ process counter, w.directory.files (temporaryName child process counter) = none
  guard : ∀ g, w.guard = some g → Held child w.directory g

variable {m : Minicbor} {path : PathBuf} {child : List Byte} {d after : Directory} {w : World}
  {opened : OpenStorage} {g : NamedGuard} {next : ReplayState} {e : Event} {scope : ReplayScope}
  {capacity : ℕ} {now : U64}

theorem Ready.lock_length (h : Ready child w) : (child ++ utf8 ".lock").length ≤ maxNameBytes := by
  have hsuffix : (utf8 ".lock").length = 5 := by decide
  have hshort := h.short
  rw [List.length_append, hsuffix]
  omega

theorem Ready.pending_length (h : Ready child w) :
    (child ++ utf8 ".pending").length ≤ maxNameBytes := by
  have hsuffix : (utf8 ".pending").length = 8 := by decide
  rw [List.length_append, hsuffix]
  exact h.short

theorem openStorage_eq_ok (hchild : path.fileName = some child) :
    openStorage path d = .ok opened ↔ ∃ locked, d.lock (child ++ utf8 ".lock") = .ok locked ∧
      locked.read (child ++ utf8 ".pending") 64 = .error .missing ∧
      opened = ⟨locked, child, child ++ utf8 ".pending", child ++ utf8 ".lock"⟩ := by
  obtain ⟨parent, hparent, -⟩ := PathBuf.eq_join hchild
  simp [openStorage, hchild, hparent, bind_eq_ok, mapError_ok, eq_comm (a := opened)]

/-- What a directory has when the storage of a path has been opened. -/
theorem opened_names (hchild : path.fileName = some child) (h : openStorage path d = .ok opened) :
    opened = ⟨opened.directory, child, child ++ utf8 ".pending", child ++ utf8 ".lock"⟩ ∧
      child.length + 8 ≤ maxNameBytes ∧
      opened.directory.files (child ++ utf8 ".pending") = none ∧
      (opened.directory.files (child ++ utf8 ".lock")).isSome ∧
      ∀ name, name ≠ child ++ utf8 ".lock" → opened.directory.files name = d.files name := by
  obtain ⟨locked, hlock, hread, rfl⟩ := (openStorage_eq_ok hchild).mp h
  obtain ⟨-, -, -, rfl⟩ := lock_eq_ok.mp hlock
  obtain ⟨-, -, hlength, hnone⟩ := read_eq_missing.mp hread
  refine ⟨rfl, ?_, hnone, by simp, ?_⟩
  · rw [List.length_append] at hlength
    exact hlength
  · intro name hname
    simp [hname]

/-- A store that has been created can commit. -/
theorem ready_of_create (hchild : path.fileName = some child)
    (hfree : ∀ process counter, d.files (temporaryName child process counter) = none)
    (h : createGuard path scope capacity now d = .ok w) : Ready child w := by
  simp only [createGuard, bind_eq_ok, mapError_ok, pure_eq_ok, Except.ok.injEq] at h
  obtain ⟨_, hcapacity, opened, hopened, created, hcreate, rfl⟩ := h
  obtain ⟨hopen, hshort, hmarker, hlock, hsame⟩ := opened_names hchild hopened
  rw [hopen] at hcreate
  obtain ⟨-, hname, -, -, rfl⟩ := create_eq_ok.mp hcreate
  have hdistinct := names_distinct child
  refine ⟨hname, hshort, ?_, ?_, ?_, ?_⟩
  · simpa [(hdistinct 0 0).1] using hmarker
  · simpa [(hdistinct 0 0).2.1] using hlock
  · intro process counter
    obtain ⟨-, -, -, hother, -, hlockName⟩ := hdistinct process counter
    simpa [hother, hsame _ hlockName] using hfree process counter
  · intro g hg
    obtain rfl := Option.some.inj hg
    rw [hopen]
    exact ⟨⟨rfl, rfl, rfl⟩, rfl, ensure_eq_ok.mp hcapacity, ReplayState.new_wellFormed scope now,
      by simp⟩

private theorem runSteps_cons_ok {step : Directory → Except StorageError Directory}
    {steps : List (Directory → Except StorageError Directory)} (h : step d = .ok after) :
    runSteps (step :: steps) d = runSteps steps after := by
  simp only [runSteps, h]

private theorem runSteps_cons_error {step : Directory → Except StorageError Directory}
    {steps : List (Directory → Except StorageError Directory)} {failure : StorageError}
    (h : step d = .error failure) : runSteps (step :: steps) d = (.error failure, d) := by
  simp only [runSteps, h]

section Commit

variable (hready : Ready child w) (hg : w.guard = some g)
  (hsize : next.encode.length ≤ maxStateBytes)

include hready hg

/-- The marker of a commit is always made. -/
theorem commit_begins : runSteps (g.commitSteps e.process e.counter next) w.directory =
    runSteps ((g.commitSteps e.process e.counter next).drop 2)
      (w.directory.setFile g.pending (some (utf8 "pending"))) := by
  have hheld := hready.guard g hg
  obtain ⟨hchild, hpending, hlock⟩ := hheld.names
  obtain ⟨content, hcontent⟩ := Option.isSome_iff_exists.mp hready.lockFile
  have hvalidate : w.directory.validateLock g.lock = .ok w.directory :=
    validateLock_eq_ok.mpr ⟨⟨content, openFile_eq_ok.mpr
      ⟨hlock ▸ hready.name.lock, hlock ▸ hready.lock_length, hlock ▸ hcontent⟩⟩, rfl⟩
  have hcreate : w.directory.create g.pending (utf8 "pending") =
      .ok (w.directory.setFile g.pending (some (utf8 "pending"))) :=
    create_eq_ok.mpr ⟨by decide, hpending ▸ hready.name.pending, hpending ▸ hready.pending_length,
      hpending ▸ hready.marker, rfl⟩
  rw [NamedGuard.commitSteps, runSteps_cons_ok hvalidate, runSteps_cons_ok hcreate]
  rfl

/-- Without a name for its temporary the replacement fails, and the marker stays. -/
theorem commit_of_not_fits (hfits : ¬ Fits child e) :
    g.commit e.process e.counter next w.directory =
      (.error .replayState, ⟨w.directory.setFile g.pending (some (utf8 "pending")),
        some { g with poisoned := true }⟩) := by
  have hheld := hready.guard g hg
  have hreplace : ∃ failure, (w.directory.setFile g.pending (some (utf8 "pending"))).replace e.process
      e.counter g.child next.encode = .error failure := by
    cases hresult : (w.directory.setFile g.pending (some (utf8 "pending"))).replace e.process
        e.counter g.child next.encode with
    | error failure => exact ⟨failure, rfl⟩
    | ok after =>
        obtain ⟨-, -, hopen, -⟩ := replace_eq_ok.mp hresult
        rw [hheld.names.1] at hopen
        exact absurd (openAt_temporary e |>.mp hopen) hfits
  obtain ⟨failure, hfailure⟩ := hreplace
  have hsteps : runSteps (g.commitSteps e.process e.counter next) w.directory =
      (.error failure, w.directory.setFile g.pending (some (utf8 "pending"))) := by
    rw [commit_begins hready hg]
    exact runSteps_cons_error hfailure
  simp only [NamedGuard.commit, hheld.usable, hsteps, Bool.false_eq_true, ↓reduceIte]

include hsize in
/-- Where its temporary has a name, a commit replaces the state and removes its marker. -/
theorem commit_of_fits (hfits : Fits child e) : ∃ after,
    g.commit e.process e.counter next w.directory = (.ok (), ⟨after, some { g with state := next }⟩) ∧
      after.files child = some next.encode ∧
      (∀ name, name ≠ child → after.files name = w.directory.files name) ∧
      after.locked = w.directory.locked := by
  have hheld := hready.guard g hg
  obtain ⟨hchild, hpending, hlock⟩ := hheld.names
  obtain ⟨hne, hlockNe, hmarkLock, htempChild, htempMark, htempLock⟩ :=
    names_distinct child e.process e.counter
  obtain ⟨content, hcontent⟩ := Option.isSome_iff_exists.mp hheld.file
  obtain ⟨lockContent, hlockContent⟩ := Option.isSome_iff_exists.mp hready.lockFile
  have hshort := hready.short
  let temp := temporaryName child e.process e.counter
  let marked := w.directory.setFile g.pending (some (utf8 "pending"))
  let replaced := (marked.setFile temp (some next.encode)).rename temp child
  have hreplacedFiles (name : List Byte) : replaced.files name =
      if name = temp then none else if name = child then some next.encode
      else if name = child ++ utf8 ".pending" then some (utf8 "pending")
      else w.directory.files name := by
    simp only [replaced, marked, Directory.rename, Directory.setFile_files, hpending]
    split_ifs <;> simp_all
  have hreplace : marked.replace e.process e.counter g.child next.encode = .ok replaced := by
    rw [hchild]
    refine replace_eq_ok.mpr ⟨hsize, ⟨content, openFile_eq_ok.mpr ⟨hready.name, by omega, ?_⟩⟩,
      (openAt_temporary e).mpr hfits, ?_, rfl⟩
    · simpa [marked, hpending, hne.symm] using hcontent
    · simpa [marked, hpending, htempMark] using hready.free e.process e.counter
  have hlockFile : replaced.files (child ++ utf8 ".lock") = some lockContent := by
    rw [hreplacedFiles, if_neg (fun h => htempLock h.symm), if_neg hlockNe, if_neg hmarkLock.symm]
    exact hlockContent
  have hmarkFile : replaced.files (child ++ utf8 ".pending") = some (utf8 "pending") := by
    rw [hreplacedFiles, if_neg (fun h => htempMark h.symm), if_neg hne, if_pos rfl]
  have hvalidate : replaced.validateLock g.lock = .ok replaced := by
    rw [hlock]
    exact validateLock_eq_ok.mpr
      ⟨⟨lockContent, openFile_eq_ok.mpr ⟨hready.name.lock, hready.lock_length, hlockFile⟩⟩, rfl⟩
  have hremove : replaced.remove g.pending = .ok (replaced.setFile g.pending none) := by
    rw [hpending]
    exact remove_eq_ok.mpr
      ⟨⟨_, openFile_eq_ok.mpr ⟨hready.name.pending, hready.pending_length, hmarkFile⟩⟩, rfl⟩
  have hsteps : runSteps (g.commitSteps e.process e.counter next) w.directory =
      (.ok (), replaced.setFile g.pending none) := by
    rw [commit_begins hready hg]
    change runSteps [fun d => d.replace e.process e.counter g.child next.encode,
      fun d => d.validateLock g.lock, fun d => d.remove g.pending] marked = _
    rw [runSteps_cons_ok hreplace, runSteps_cons_ok hvalidate, runSteps_cons_ok hremove]
    rfl
  refine ⟨replaced.setFile g.pending none, ?_, ?_, ?_, rfl⟩
  · simp only [NamedGuard.commit, hheld.usable, hsteps, Bool.false_eq_true, ↓reduceIte]
  · rw [Directory.setFile_files, hpending, if_neg hne.symm, hreplacedFiles,
      if_neg (fun h => htempChild h.symm), if_pos rfl]
  · intro name hname
    rw [Directory.setFile_files, hpending, hreplacedFiles, if_neg hname]
    split_ifs with hmark htemp
    · rw [hmark, hready.marker]
    · rw [htemp]
      exact (hready.free _ _).symm
    · rfl

end Commit

/-- What a commit leaves can commit again. -/
theorem ready_of_commit (hready : Ready child w) (hg : w.guard = some g) (hwell : next.WellFormed)
    (hfile : after.files child = some next.encode)
    (hsame : ∀ name, name ≠ child → after.files name = w.directory.files name) :
    Ready child ⟨after, some { g with state := next }⟩ := by
  have hheld := hready.guard g hg
  have hdistinct := names_distinct child
  refine ⟨hready.name, hready.short, ?_, ?_, ?_, ?_⟩
  · rw [hsame _ (hdistinct 0 0).1]
    exact hready.marker
  · rw [hsame _ (hdistinct 0 0).2.1]
    exact hready.lockFile
  · intro process counter
    rw [hsame _ (hdistinct process counter).2.2.2.1]
    exact hready.free process counter
  · intro g' hg'
    obtain rfl := Option.some.inj hg'
    exact ⟨hheld.names, hheld.usable, hheld.capacity, hwell, by rw [hfile]; rfl⟩

/-- A guard that is dropped is opened again as it was. -/
theorem reopen_of_ready (m : Minicbor) (hchild : path.fileName = some child) (hready : Ready child w)
    (hg : w.guard = some g) (hlength : g.state.entries.length ≤ g.capacity)
    (hfile : w.directory.files child = some g.state.encode) : ∃ reopened,
      openGuard m path g.state.scope g.capacity w.drop.directory = .ok reopened ∧
        reopened.guard = some g := by
  have hheld := hready.guard g hg
  obtain ⟨hname, hpending, hlock⟩ := hheld.names
  obtain ⟨hne, hlockNe, hmarkLock, -⟩ := names_distinct child 0 0
  have hdrop : w.drop.directory = { w.directory with locked := w.directory.locked.erase g.lock } := by
    simp only [World.drop, hg]
  let locked : Directory :=
    { w.directory.setFile (child ++ utf8 ".lock")
        (some ((w.directory.files (child ++ utf8 ".lock")).getD [])) with
      locked := insert (child ++ utf8 ".lock") (w.directory.locked.erase g.lock) }
  have htaken : w.drop.directory.lock (child ++ utf8 ".lock") = .ok locked := by
    rw [hdrop, hlock]
    exact lock_eq_ok.mpr ⟨hready.name.lock, hready.lock_length, Finset.notMem_erase _ _, by
      simp [locked, hlock, Directory.setFile]⟩
  have hmissing : locked.read (child ++ utf8 ".pending") 64 = .error .missing :=
    read_eq_missing.mpr ⟨by decide, hready.name.pending, hready.pending_length, by
      simpa [locked, hmarkLock] using hready.marker⟩
  have hopen : openStorage path w.drop.directory =
      .ok ⟨locked, child, child ++ utf8 ".pending", child ++ utf8 ".lock"⟩ :=
    (openStorage_eq_ok hchild).mpr ⟨locked, htaken, hmissing, rfl⟩
  have hcapacity := hheld.capacity
  have hread : locked.read child maxStateBytes = .ok g.state.encode := by
    have hshort := hready.short
    refine read_eq_ok.mpr ⟨le_rfl, ⟨hready.name, by omega, ?_⟩, ?_, encode_ne_nil _⟩
    · simpa [locked, hlockNe.symm] using hfile
    · exact encode_length_le_maxStateBytes (hlength.trans hcapacity.2)
  have hdecode : ReplayState.decode m g.state.encode g.capacity = .ok g.state :=
    decode_encode hheld.wellFormed hcapacity hlength
  refine ⟨⟨locked, some g⟩, ?_, rfl⟩
  have hguard : (OpenStorage.mk locked child (child ++ utf8 ".pending") (child ++ utf8 ".lock")).guard
      g.state g.capacity = g := by
    obtain ⟨⟨state, capacity, poisoned⟩, child', pending, lock⟩ := g
    simp only at hname hpending hlock
    have husable : poisoned = false := hheld.usable
    simp [OpenStorage.guard, husable, hname, hpending, hlock]
  simp only [openGuard, validateCapacity, hopen, hread, hdecode, ensure_true _ hcapacity, ok_bind,
    Except.mapError, ensure_true _ trivial, hguard, pure_eq_ok]

end Ready

section Runs

variable {m : Minicbor} {path : PathBuf} {child : List Byte} {w : World} {e : Event} {g : NamedGuard}
  {next : ReplayState}

theorem accepts_length (hready : Ready child w) (h : Accepts w e g next) :
    next.WellFormed ∧ next.entries.length ≤ g.capacity := by
  obtain ⟨hg, hconsume⟩ := h
  have hwell := (hready.guard g hg).wellFormed
  cases hcall : e.call with
  | consumeRequest desktopId identityId requestId nonce expires now =>
      rw [hcall] at hconsume
      have hnext := Option.some.inj hconsume
      exact ⟨ReplayState.consume_wellFormed hwell hnext, ReplayState.consume_length_le hnext⟩
  | consumeResponse desktopId identityId digest expires now =>
      rw [hcall] at hconsume
      have hnext := Option.some.inj hconsume
      exact ⟨ReplayState.consume_wellFormed hwell hnext, ReplayState.consume_length_le hnext⟩
  | «open» | drop =>
      rw [hcall] at hconsume
      cases hconsume

/-- An accepted consumption is a commit. -/
theorem respond_of_accepts (hready : Ready child w) (h : Accepts w e g next) :
    w.respond m path e = (some (g.commit e.process e.counter next w.directory).1,
      (g.commit e.process e.counter next w.directory).2) := by
  obtain ⟨hg, hconsume⟩ := h
  have husable := (hready.guard g hg).usable
  cases hcall : e.call with
  | consumeRequest | consumeResponse =>
      rw [hcall] at hconsume
      simp only [World.respond, hcall, hg, hconsume, NamedGuard.consumeWith, husable,
        Bool.false_eq_true, ↓reduceIte]
  | «open» | drop =>
      rw [hcall] at hconsume
      cases hconsume

/-- An accepted consumption commits exactly when its temporary has a name. -/
theorem commits_iff (hchild : path.fileName = some child) (hready : Ready child w) :
    Commits m path w e ↔ ((∃ g next, Accepts w e g next) → Fits child e) := by
  constructor
  · intro h haccepted
    obtain ⟨g, next, haccepts⟩ := haccepted
    obtain ⟨after, hafter, -⟩ := h g next haccepts
    by_contra hfits
    rw [respond_of_accepts hready haccepts, commit_of_not_fits hready haccepts.1 hfits] at hafter
    cases hafter
  · intro h g next haccepts
    obtain ⟨hwell, hlength⟩ := accepts_length hready haccepts
    have hheld := hready.guard g haccepts.1
    have hsize := encode_length_le_maxStateBytes (hlength.trans hheld.capacity.2)
    obtain ⟨after, hcommit, hfile, hsame, -⟩ :=
      commit_of_fits hready haccepts.1 hsize (h ⟨g, next, haccepts⟩)
    have hnext := ready_of_commit hready haccepts.1 hwell hfile hsame
    refine ⟨⟨after, some { g with state := next }⟩, ?_, ?_, ?_⟩
    · rw [respond_of_accepts hready haccepts, hcommit]
    · rw [hheld.names.2.1]
      exact hnext.marker
    · exact reopen_of_ready m hchild hnext rfl hlength hfile

theorem ready_drop (hready : Ready child w) : Ready child w.drop := by
  unfold World.drop
  split
  · exact hready
  · exact ⟨hready.name, hready.short, hready.marker, hready.lockFile, hready.free, by simp⟩

theorem ready_open {scope : ReplayScope} {capacity : ℕ} {opened : World}
    (hchild : path.fileName = some child) (hready : Ready child w)
    (h : openGuard m path scope capacity w.directory = .ok opened) : Ready child opened := by
  simp only [openGuard, bind_eq_ok, mapError_ok, ensure_eq_ok, pure_eq_ok, Except.ok.injEq] at h
  obtain ⟨_, hcapacity, storage, hopened, content, hread, state, hdecode, _, -, rfl⟩ := h
  obtain ⟨hopen, -, hmarker, hlock, hsame⟩ := opened_names hchild hopened
  rw [hopen] at hread ⊢
  obtain ⟨-, ⟨-, -, hcontent⟩, -⟩ := read_eq_ok.mp hread
  refine ⟨hready.name, hready.short, hmarker, hlock, ?_, ?_⟩
  · intro process counter
    rw [hsame _ (names_distinct child process counter).2.2.2.2.2]
    exact hready.free process counter
  · intro g hg
    obtain rfl := Option.some.inj hg
    exact ⟨⟨rfl, rfl, rfl⟩, rfl, ensure_eq_ok.mp hcapacity, (MacReplay.decode_wellFormed hdecode).1, by
      rw [hcontent]
      rfl⟩

private theorem ready_consumeWith {consumed : Except ProtocolError ReplayState}
    (hready : Ready child w) (hg : w.guard = some g) (hconsume : g.consume e.call = some consumed)
    (hfits : (∃ g next, Accepts w e g next) → Fits child e) :
    Ready child (g.consumeWith consumed e.process e.counter w.directory).2 := by
  have hheld := hready.guard g hg
  cases consumed with
  | error failure =>
      simp only [NamedGuard.consumeWith, hheld.usable, Bool.false_eq_true, ↓reduceIte]
      rw [← hg]
      exact hready
  | ok next =>
      have haccepts : Accepts w e g next := ⟨hg, hconsume⟩
      obtain ⟨hwell, hlength⟩ := accepts_length hready haccepts
      have hsize := encode_length_le_maxStateBytes (hlength.trans hheld.capacity.2)
      obtain ⟨after, hcommit, hfile, hsame, -⟩ := commit_of_fits hready hg hsize (hfits ⟨g, next, haccepts⟩)
      have hrun : g.consumeWith (.ok next) e.process e.counter w.directory =
          g.commit e.process e.counter next w.directory := by
        simp only [NamedGuard.consumeWith, hheld.usable, Bool.false_eq_true, ↓reduceIte]
      rw [hrun, hcommit]
      exact ready_of_commit hready hg hwell hfile hsame

/-- A call that meets no name too long leaves a store that can commit. -/
theorem respond_ready (hchild : path.fileName = some child) (hready : Ready child w)
    (hfits : (∃ g next, Accepts w e g next) → Fits child e) : Ready child (w.respond m path e).2 := by
  cases hcall : e.call with
  | «open» scope capacity =>
      simp only [World.respond, hcall]
      cases hopen : openGuard m path scope capacity w.directory with
      | ok opened => exact ready_open hchild hready hopen
      | error failure => exact hready
  | drop =>
      simp only [World.respond, hcall]
      exact ready_drop hready
  | consumeRequest | consumeResponse =>
      simp only [World.respond, hcall]
      cases hguard : w.guard with
      | none => exact hready
      | some g => exact ready_consumeWith hready hguard (by rw [hcall]; rfl) hfits

/-- In every run of a store that has been created, the accepted consumptions commit exactly when the
names of their temporaries are short enough. -/
theorem consumptions_commit {scope : ReplayScope} {capacity : ℕ} {now : U64} {d : Directory}
    (hchild : path.fileName = some child)
    (hfree : ∀ process counter, d.files (temporaryName child process counter) = none)
    (hcreate : createGuard path scope capacity now d = .ok w) (events : List Event) :
    Transducer.Throughout (World.respond m path) (Commits m path) w events ↔
      Transducer.Throughout (World.respond m path)
        (fun w e => (∃ g next, Accepts w e g next) → Fits child e) w events :=
  Transducer.throughout_congr (fun _ _ => commits_iff hchild) (fun _ _ => respond_ready hchild)
    (ready_of_create hchild hfree hcreate)

section Samples

def sampleScope : ReplayScope := ⟨.desktopResponses, Bytes.replicate 16 1, Bytes.replicate 16 2⟩

def emptyDirectory : Directory := ⟨fun _ => none, ∅⟩

/-- What creating a store of the given name leaves of an empty directory. -/
def createdWorld (name : List Byte) : World :=
  let state := ReplayState.new sampleScope 100
  let lock := name ++ utf8 ".lock"
  ⟨{ (emptyDirectory.setFile lock (some [])).setFile name (some state.encode) with locked := {lock} },
    some { state, capacity := 2, poisoned := false, child := name, pending := name ++ utf8 ".pending",
           lock }⟩

def sampleEvent : Event :=
  ⟨.consumeResponse sampleScope.desktopId sampleScope.identityId (Bytes.replicate 32 3) 110 100, 1, 0⟩

theorem create_empty {path : PathBuf} {name : List Byte} (hname : path.fileName = some name)
    (hfile : FileName name) (hshort : name.length + 8 ≤ maxNameBytes) :
    createGuard path sampleScope 2 100 emptyDirectory = .ok (createdWorld name) := by
  have hlockLength : (name ++ utf8 ".lock").length ≤ maxNameBytes := by
    have hsuffix : (utf8 ".lock").length = 5 := by decide
    rw [List.length_append, hsuffix]
    omega
  have hpendingLength : (name ++ utf8 ".pending").length ≤ maxNameBytes := by
    have hsuffix : (utf8 ".pending").length = 8 := by decide
    rw [List.length_append, hsuffix]
    exact hshort
  obtain ⟨-, hlock, hmark, -⟩ := names_distinct name 0 0
  let locked : Directory :=
    { emptyDirectory.setFile (name ++ utf8 ".lock") (some []) with locked := {name ++ utf8 ".lock"} }
  have htaken : emptyDirectory.lock (name ++ utf8 ".lock") = .ok locked :=
    lock_eq_ok.mpr ⟨hfile.lock, hlockLength, by simp [emptyDirectory], rfl⟩
  have hmissing : locked.read (name ++ utf8 ".pending") 64 = .error .missing :=
    read_eq_missing.mpr ⟨by decide, hfile.pending, hpendingLength, by
      simp [locked, hmark, emptyDirectory]⟩
  have hopen := (openStorage_eq_ok hname).mpr ⟨locked, htaken, hmissing, rfl⟩
  have hcreate : locked.create name (ReplayState.new sampleScope 100).encode =
      .ok (locked.setFile name (some (ReplayState.new sampleScope 100).encode)) :=
    create_eq_ok.mpr ⟨encode_length_le_maxStateBytes (by decide), hfile, by omega, by
      simp [locked, hlock.symm, emptyDirectory], rfl⟩
  have hcapacity : validateCapacity 2 = .ok () := by decide
  simp only [createGuard, hcapacity, hopen, hcreate, ok_bind, Except.mapError, pure_eq_ok]
  rfl

/-- The first response to a created store is one its state accepts. -/
theorem sample_accepted (name : List Byte) :
    ∃ g next, Accepts (createdWorld name) sampleEvent g next := by
  have hconsume : ∃ next, (ReplayState.new sampleScope 100).consumeResponse sampleScope
      (Bytes.replicate 32 3) 110 100 2 = .ok next := by
    refine ⟨_, ReplayState.consume_eq_ok.mpr ⟨by decide, by decide, by decide, ?_, ?_, rfl⟩⟩
    · simp [ReplayState.liveEntries, ReplayState.new, ExpiringSet.live]
    · simp [ReplayState.liveEntries, ReplayState.new, ExpiringSet.live]
  obtain ⟨next, hnext⟩ := hconsume
  exact ⟨_, next, rfl, congrArg some hnext⟩

def samplePath : PathBuf := sampleRoot.join (utf8 "replay.state")

theorem consumptions_commit_sample :
    Transducer.Throughout (World.respond .definite samplePath) (Commits .definite samplePath)
        (createdWorld (utf8 "replay.state")) [sampleEvent, ⟨.drop, 1, 1⟩] ↔
      Transducer.Throughout (World.respond .definite samplePath)
        (fun w e => (∃ g next, Accepts w e g next) → Fits (utf8 "replay.state") e)
        (createdWorld (utf8 "replay.state")) [sampleEvent, ⟨.drop, 1, 1⟩] :=
  consumptions_commit (PathBuf.fileName_join _ _) (fun _ _ => rfl)
    (create_empty (PathBuf.fileName_join _ _) (by decide +kernel) (by decide +kernel)) _

def longName : String := String.ofList (List.replicate 200 'a')

def longPath : PathBuf := sampleRoot.join (utf8 longName)

/-- A replay state with a name of 200 bytes is accepted and created, and the first consumption leaves
the marker that disables it. -/
theorem long_name_disabled :
    (SetupJournal.explicitSetup longName).validateExplicitRoot sampleRoot = .ok () ∧
      (SetupJournal.explicitSetup longName).replayState = longPath ∧
      createGuard longPath sampleScope 2 100 emptyDirectory = .ok (createdWorld (utf8 longName)) ∧
      (∃ g next, Accepts (createdWorld (utf8 longName)) sampleEvent g next) ∧
      ((createdWorld (utf8 longName)).respond .definite longPath sampleEvent).1 =
        some (.error .replayState) ∧
      ((createdWorld (utf8 longName)).respond .definite longPath sampleEvent).2.directory.files
        (utf8 longName ++ utf8 ".pending") = some (utf8 "pending") ∧
      ¬ Transducer.Throughout (World.respond .definite longPath) (Commits .definite longPath)
        (createdWorld (utf8 longName)) [sampleEvent] := by
  have hname : longPath.fileName = some (utf8 longName) := PathBuf.fileName_join _ _
  have hfile : FileName (utf8 longName) := by decide +kernel
  have hlength : (utf8 longName).length = 200 := by decide +kernel
  have hcreate := create_empty hname hfile (by rw [hlength]; decide)
  have hready := ready_of_create hname (fun _ _ => rfl) hcreate
  obtain ⟨g, next, haccepts⟩ := sample_accepted (utf8 longName)
  have hfits : ¬ Fits (utf8 longName) sampleEvent := by
    rw [Fits, hlength]
    omega
  have hrespond : (createdWorld (utf8 longName)).respond .definite longPath sampleEvent = _ :=
    respond_of_accepts hready haccepts
  rw [commit_of_not_fits hready haccepts.1 hfits] at hrespond
  refine ⟨by decide +kernel, rfl, hcreate, ⟨g, next, haccepts⟩, ?_, ?_, ?_⟩
  · rw [hrespond]
  · rw [hrespond, (hready.guard g haccepts.1).names.2.1]
    simp
  · intro hcommits
    obtain ⟨after, hafter, -⟩ := hcommits [] sampleEvent [] rfl g next haccepts
    rw [Transducer.final_nil, hrespond] at hafter
    cases hafter

end Samples

end Runs

end AgePluginPhone.Desktop.ReplayStorage
