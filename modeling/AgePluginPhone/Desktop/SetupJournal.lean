import AgePluginPhone.Desktop.AgeIdentity

/-!
# The setup journal

The record of a pairing that is being set up. A managed setup derives its private paths from the
desktop id; an explicit setup on macOS takes its paths from the user, when `validateExplicitRoot`
accepts them.
-/

namespace AgePluginPhone.Desktop

open Library AgePluginPhone.Core

section Extension

def dot : Byte := 46

/-- The extension of a file name: what follows its last dot, unless the name only begins with it. -/
def extensionOf (name : List Byte) : Option (List Byte) :=
  if name = utf8 ".." ∨ (name.rdropWhile (· ≠ dot)).length ≤ 1 then none
  else some (name.rtakeWhile (· ≠ dot))

def PathBuf.extension (path : PathBuf) : Option (List Byte) := path.fileName.bind extensionOf

theorem extensionOf_append {stem ext : List Byte} (hstem : stem ≠ []) (hext : ext ≠ [])
    (hdot : dot ∉ ext) : extensionOf (stem ++ dot :: ext) = some ext := by
  have hother : ∀ b ∈ ext.reverse, decide (b ≠ dot) = true := by
    intro b hb
    have hb' : b ≠ dot := fun h => hdot (h ▸ List.mem_reverse.mp hb)
    simpa using hb'
  have hreverse : (stem ++ dot :: ext).reverse = ext.reverse ++ dot :: stem.reverse := by simp
  have hbefore : (stem ++ dot :: ext).rdropWhile (· ≠ dot) = stem ++ [dot] := by
    rw [List.rdropWhile, hreverse, List.dropWhile_append_of_pos hother,
      List.dropWhile_cons_of_neg (by simp)]
    simp
  have hafter : (stem ++ dot :: ext).rtakeWhile (· ≠ dot) = ext := by
    rw [List.rtakeWhile, hreverse, List.takeWhile_append_of_pos hother,
      List.takeWhile_cons_of_neg (by simp)]
    simp
  have hstemLength := List.length_pos_iff.mpr hstem
  have hextLength := List.length_pos_iff.mpr hext
  have hdots : stem ++ dot :: ext ≠ utf8 ".." := by
    intro h
    have hlength := congrArg List.length h
    have htwo : (utf8 "..").length = 2 := by decide
    rw [htwo, List.length_append, List.length_cons] at hlength
    omega
  rw [extensionOf, hbefore, hafter, if_neg]
  intro h
  rcases h with h | h
  · exact hdots h
  · rw [List.length_append, List.length_singleton] at h
    omega

end Extension

inductive SetupStage
  | provisioning
  | pairing
  | responseVerified
  | confirmed
  deriving DecidableEq

structure SetupJournal where
  explicitPaths : Bool
  stage : SetupStage
  setupCode : Id
  desktopId : Id
  desktopState : PathBuf
  replayState : PathBuf
  identityStub : PathBuf
  transport : TransportChoice
  candidate : Option PublicIdentityStub
  deriving DecidableEq

inductive SetupError
  | unsupported
  | pending
  | missing
  | invalid
  | storage
  | busy
  deriving DecidableEq

namespace SetupJournal

def new (root : PathBuf) (setupCode desktopId : Id) : SetupJournal :=
  let suffix := hex desktopId.val
  { explicitPaths := false
    stage := .provisioning
    setupCode
    desktopId
    desktopState := root.join (utf8 ("desktop-" ++ suffix ++ ".state"))
    replayState := root.join (utf8 ("replay-" ++ suffix ++ ".state"))
    identityStub := root.join (utf8 ("identity-" ++ suffix ++ ".txt"))
    transport := .auto
    candidate := none }

def newWithTransport (root : PathBuf) (setupCode desktopId : Id) (transport : TransportChoice) :
    SetupJournal :=
  { new root setupCode desktopId with transport }

section Explicit

/-- A byte of a name that has no alias on a file system that ignores case. -/
def plainByte (b : Byte) : Prop :=
  (97 ≤ b.val ∧ b.val ≤ 122) ∨ (48 ≤ b.val ∧ b.val ≤ 57) ∨ b.val = 46 ∨ b.val = 45 ∨ b.val = 95

instance (b : Byte) : Decidable (plainByte b) := inferInstanceAs (Decidable (_ ∨ _))

def reservedExtensions : List (List Byte) := [utf8 "cbor", utf8 "lock", utf8 "pending"]

/-- One explicit path, with the names of the paths before it. What is not text is refused with the
bytes it has. -/
def explicitName (names : Finset (List Byte)) (path : PathBuf) :
    Except SetupError (Finset (List Byte)) := do
  let name ← okOr path.fileName .invalid
  ensure (name ≠ [] ∧ (∀ b ∈ name, plainByte b) ∧ name ∉ names ∧
    (∀ ext ∈ path.extension, ext ∉ reservedExtensions) ∧ ¬ utf8 ".replace-" <+: name ∧
    ¬ utf8 ".state-" <+: name) .invalid
  return insert name names

/-- `validate_explicit_root` on macOS. -/
def validateExplicitRoot (journal : SetupJournal) (root : PathBuf) : Except SetupError Unit := do
  let paths := [journal.desktopState, journal.replayState, journal.identityStub]
  ensure (CleanupJournal.canonical root ∧ (∀ path ∈ paths, CleanupJournal.canonical path) ∧
    journal.desktopState.parent = some root ∧ journal.replayState.parent = some root ∧
    journal.desktopState ≠ journal.replayState ∧ journal.desktopState ≠ journal.identityStub ∧
    journal.replayState ≠ journal.identityStub) .invalid
  let _ ← paths.foldlM explicitName ∅
  return ()

def validateRoot (journal : SetupJournal) (root : PathBuf) : Except SetupError Unit :=
  if journal.explicitPaths then journal.validateExplicitRoot root
  else do
    ensure root.isAbsolute .invalid
    let expected := new root journal.setupCode journal.desktopId
    ensure (journal.desktopState = expected.desktopState ∧
      journal.replayState = expected.replayState ∧
      journal.identityStub = expected.identityStub) .invalid

/-- An explicit setup owns the paths the caller selects. -/
def newExplicit (root : PathBuf) (setupCode desktopId : Id)
    (desktopState replayState identityStub : PathBuf) (transport : TransportChoice) :
    Except SetupError SetupJournal := do
  let value := { newWithTransport root setupCode desktopId transport with
    explicitPaths := true, desktopState, replayState, identityStub }
  value.validateRoot root
  return value

end Explicit

section Accepted

variable {journal : SetupJournal} {root path : PathBuf} {names after : Finset (List Byte)}
  {name : List Byte}

/-- What an accepted explicit path has for a name. -/
structure ExplicitName (name : List Byte) : Prop where
  nonempty : name ≠ []
  plain : ∀ b ∈ name, plainByte b
  extension : ∀ ext ∈ extensionOf name, ext ∉ reservedExtensions
  replacement : ¬ utf8 ".replace-" <+: name
  legacy : ¬ utf8 ".state-" <+: name

theorem explicitName_eq_ok : explicitName names path = .ok after ↔
    ∃ name, path.fileName = some name ∧ ExplicitName name ∧ name ∉ names ∧
      after = insert name names := by
  unfold explicitName
  cases hname : path.fileName with
  | none => simp [okOr]
  | some name =>
      have hext : path.extension = extensionOf name := by simp [PathBuf.extension, hname]
      simp only [okOr_some, ok_bind, bind_eq_ok, ensure_eq_ok, hext, pure_eq_ok, Except.ok.injEq]
      constructor
      · intro h
        obtain ⟨_, ⟨hne, hplain, hnew, hreserved, hreplace, hstate⟩, rfl⟩ := h
        exact ⟨name, rfl, ⟨hne, hplain, hreserved, hreplace, hstate⟩, hnew, rfl⟩
      · intro h
        obtain ⟨_, hsome, hok, hnew, rfl⟩ := h
        obtain rfl := Option.some.inj hsome
        exact ⟨(), ⟨hok.nonempty, hok.plain, hnew, hok.extension, hok.replacement, hok.legacy⟩, rfl⟩

/-- The names of the three paths of an accepted journal. -/
theorem names_of_validateExplicitRoot (h : journal.validateExplicitRoot root = .ok ()) :
    ∃ state replay stub, journal.desktopState.fileName = some state ∧
      journal.replayState.fileName = some replay ∧ journal.identityStub.fileName = some stub ∧
      ExplicitName state ∧ ExplicitName replay ∧ ExplicitName stub ∧ state ≠ replay ∧
      state ≠ stub ∧ replay ≠ stub := by
  simp only [validateExplicitRoot, bind_eq_ok, List.foldlM_cons, List.foldlM_nil,
    explicitName_eq_ok] at h
  obtain ⟨_, -, _, hnames, -⟩ := h
  obtain ⟨_, ⟨state, hstate, hstateOk, -, rfl⟩, _, ⟨replay, hreplay, hreplayOk, hnew, rfl⟩, _,
    ⟨stub, hstub, hstubOk, hlast, rfl⟩, -⟩ := hnames
  refine ⟨state, replay, stub, hstate, hreplay, hstub, hstateOk, hreplayOk, hstubOk, ?_, ?_, ?_⟩
  · rintro rfl
    exact hnew (Finset.mem_insert_self _ _)
  · rintro rfl
    exact hlast (Finset.mem_insert_of_mem (Finset.mem_insert_self _ _))
  · rintro rfl
    exact hlast (Finset.mem_insert_self _ _)

end Accepted

end SetupJournal

end AgePluginPhone.Desktop
