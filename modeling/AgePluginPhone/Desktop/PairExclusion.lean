import AgePluginPhone.Desktop.AdbSharing
import AgePluginPhone.Desktop.ExplicitPair

/-!
# Two pairings with one file system

Two desktop processes pair with the paths they are given, which may be shared, while files appear
and vanish by other hands. A process may stop anywhere.
-/

namespace AgePluginPhone.Desktop.ExplicitPair

open Library
open Adb (Side)

section Worlds

variable {Location : Type} [DecidableEq Location]

/-- What a process is started with, and the location that a path has for it. -/
structure Plan (Location : Type) where
  platform : Platform
  paths : Paths
  locate : PathBuf → Location

/-- A file with the run that has created it, if one has. -/
structure File where
  creator : Option Side
  content : List Byte
  deriving DecidableEq

/-- What a query does to the file at its path. -/
inductive Change
  | unchanged
  | created (content : List Byte)
  | removed
  deriving DecidableEq

def Change.applied (side : Side) (file : Option File) : Change → Option File
  | .unchanged => file
  | .created content => some ⟨some side, content⟩
  | .removed => none

def Query.path : Query → Option PathBuf
  | .pathExists path | .symlinkMetadata path | .openState path | .create _ path | .lock path
  | .remove path => some path
  | .step _ | .createKeySet | .removeKeySet => none

/-- What a query can come to, with the file that is at its path. A file is created only where there
is none, and a query that fails may have taken effect. -/
def answered (file : Option File) : Event → Change → Bool
  | ⟨.pathExists _, reply⟩, .unchanged | ⟨.symlinkMetadata _, reply⟩, .unchanged
  | ⟨.openState _, reply⟩, .unchanged =>
      (reply ≠ .done || file.isSome) && (reply ≠ .missing || file.isNone)
  | ⟨.create _ _, reply⟩, .unchanged => reply ≠ .done
  | ⟨.create _ _, _⟩, .created _ => file.isNone
  | ⟨.lock _, reply⟩, .unchanged => reply ≠ .done || file.isSome
  | ⟨.lock _, _⟩, .created _ => file.isNone
  | ⟨.remove _, reply⟩, .unchanged => reply ≠ .done && (reply ≠ .missing || file.isNone)
  | ⟨.remove _, reply⟩, .removed => reply ≠ .missing
  | ⟨.step _, _⟩, .unchanged | ⟨.createKeySet, _⟩, .unchanged
  | ⟨.removeKeySet, _⟩, .unchanged => true
  | _, _ => false

/-- A run, by the program still to be run and the events so far. -/
structure Party where
  program : PairM Outcome
  past : List Event

def Party.asks (p : Party) (query : Query) : Bool :=
  match p.program with
  | .ask next _ => next = query
  | .done _ => false

def Party.after (p : Party) (event : Event) : Party :=
  match p.program with
  | .ask _ next => ⟨next event.2, p.past ++ [event]⟩
  | .done _ => p

structure World (Location : Type) where
  parties : Side → Party
  files : Location → Option File

inductive Move (Location : Type)
  | act (side : Side) (event : Event) (change : Change)
  | appear (location : Location) (content : List Byte)
  | vanish (location : Location)
  | stop (side : Side)

namespace World

variable (plans : Side → Plan Location) (w : World Location)

def start (plans : Side → Plan Location) (files : Location → Option File) : World Location where
  parties side := ⟨runPair (plans side).platform (plans side).paths, []⟩
  files := files

def fileAt (side : Side) (query : Query) : Option File :=
  query.path.bind fun path => w.files ((plans side).locate path)

def changed (side : Side) (query : Query) (change : Change) : Location → Option File :=
  match query.path with
  | some path =>
      Function.update w.files ((plans side).locate path)
        (change.applied side (w.files ((plans side).locate path)))
  | none => w.files

def enabled : Move Location → Bool
  | .act side event change =>
      (w.parties side).asks event.1 && answered (w.fileAt plans side event.1) event change
  | _ => true

def after : Move Location → World Location
  | .act side event change =>
      ⟨Function.update w.parties side ((w.parties side).after event),
        w.changed plans side event.1 change⟩
  | .appear location content =>
      { w with files := Function.update w.files location (some ⟨none, content⟩) }
  | .vanish location => { w with files := Function.update w.files location none }
  -- A run that is stopped has nothing left to do.
  | .stop side =>
      { w with parties := Function.update w.parties side ⟨.done (.ok ()), (w.parties side).past⟩ }

end World

/-- The states of the runs whose moves are all allowed. -/
inductive Run (plans : Side → Plan Location) (Allowed : World Location → Move Location → Prop)
    (start : World Location) : World Location → Prop
  | start : Run plans Allowed start start
  | step {w : World Location} (m : Move Location) : Run plans Allowed start w → Allowed w m →
      w.enabled plans m = true → Run plans Allowed start (w.after plans m)

end Worlds

section Condition

variable {Location : Type}

/-- An answer after which a rollback of the run takes the file at the path for its own. -/
def Frees (paths : Paths) (path : PathBuf) : Event → Prop
  | ⟨.pathExists found, reply⟩ =>
      found = path ∧ reply ≠ .done ∧ (path = paths.replayState ∨ path = paths.desktopState)
  | ⟨.create .locator created, .done⟩ => created = path
  | _ => False

/-- A run that is under way guards the location of its replay lock, and the locations of the paths
that an answer has freed. -/
def Party.Guards (plan : Plan Location) (p : Party) (location : Location) : Prop :=
  (∃ query, p.asks query = true) ∧
    ((∃ lockPath, replayLockPath plan.paths.replayState = some lockPath ∧
        plan.locate lockPath = location) ∨
      ∃ path, plan.locate path = location ∧ ∃ event ∈ p.past, Frees plan.paths path event)

/-- The move creates no file at a location that another run guards, and is no lookup that fails
where there is a file. -/
def Exclusive (plans : Side → Plan Location) (w : World Location) : Move Location → Prop
  | .act side event change =>
      (∀ content, change = .created content → ∀ path, event.1.path = some path →
        ¬ (w.parties side.other).Guards (plans side.other) ((plans side).locate path)) ∧
      ∀ path, event = ⟨.pathExists path, .failed⟩ → w.files ((plans side).locate path) = none
  | .appear location _ => ∀ side, ¬ (w.parties side).Guards (plans side) location
  | _ => True

/-- A run leaves every file that it has not created. -/
def KeepsOthers (w : World Location) (m : Move Location) (w' : World Location) : Prop :=
  ∀ side event change, m = .act side event change → ∀ location file,
    w.files location = some file → file.creator ≠ some side → w'.files location = some file

end Condition

section Permits

variable {platform : Platform} {paths : Paths} {path : PathBuf}

theorem unguarded_remove : Unguarded (· = .remove path) := by
  constructor
  · intro step heq
    cases heq
  · intro other heq
    cases heq
  · intro other heq
    cases heq
  · intro output other _ heq
    cases heq

theorem remove_ne {other : PathBuf} (h : path ≠ other) : ¬ Query.remove other = .remove path := by
  intro heq
  exact h (Query.remove.inj heq).symm

theorem permitted_removals {locatorPath : Option PathBuf} {created : Bool}
    (hlocator : locatorPath ≠ some path) (hreplay : path ≠ paths.replayState)
    (hlock : replayLockPath paths.replayState ≠ some path)
    (hstate : created = true → path ≠ paths.desktopState) :
    Interaction.Permitted (· = .remove path) (Frees paths path)
      (rollbackFailedPairing platform paths locatorPath created) := by
  apply permitted_rollback
  · intro other hother heq
    rw [Query.remove.inj heq] at hother
    exact hlocator hother
  · exact remove_ne hreplay
  · intro other hother heq
    rw [Query.remove.inj heq] at hother
    exact hlock hother
  · intro heq
    cases heq
  · intro hcreated
    exact remove_ne (hstate hcreated)

/-- From the open state on, only the locator is removed after an answer of the run. -/
theorem permitted_removals_pairWith {created : Bool} (hreplay : path ≠ paths.replayState)
    (hlock : replayLockPath paths.replayState ≠ some path)
    (hstate : created = true → path ≠ paths.desktopState) :
    Interaction.Permitted (· = .remove path) (Frees paths path)
      (pairWith platform paths created) := by
  apply permitted_pairWith unguarded_remove
  · exact permitted_removals (by simp) hreplay hlock hstate
  · intro hpermit
    apply permitted_removals _ hreplay hlock hstate
    intro heq
    exact hpermit (Option.some.inj heq)

theorem permitted_removals_pairFrom {existed : Bool} (hreplay : path ≠ paths.replayState)
    (hlock : replayLockPath paths.replayState ≠ some path)
    (hstate : existed = false → path ≠ paths.desktopState) :
    Interaction.Permitted (· = .remove path) (Frees paths path)
      (pairFrom platform paths existed) := by
  have hrouting : ∀ platform created, (created = true → path ≠ paths.desktopState) →
      Interaction.Permitted (· = .remove path) (Frees paths path)
        (perform (routing platform) (pairWith platform paths created)) := by
    intro platform created hcreated
    apply permitted_perform unguarded_remove.step
    exact permitted_removals_pairWith hreplay hlock hcreated
  have hcreate : ∀ {failure rest},
      Interaction.Permitted (· = .remove path) (Frees paths path) failure →
      Interaction.Permitted (· = .remove path) (Frees paths path) rest →
      Interaction.Permitted (· = .remove path) (Frees paths path)
        (attempt (.create .desktopState paths.desktopState) failure rest) := by
    intro failure rest hfailure hrest
    apply permitted_attempt
    · intro heq
      cases heq
    · intro _ _ _
      exact hfailure
    · intro _
      exact hrest
  unfold pairFrom
  cases platform with
  | windows =>
      dsimp only
      split_ifs with hexisted
      · apply permitted_attempt
        · intro heq
          cases heq
        · intro _ _ _
          exact .done _
        · intro _
          exact hrouting .windows false (by simp)
      · apply permitted_perform unguarded_remove.step
        refine .ask (by simp) fun reply _ => ?_
        split_ifs
        · exact .done _
        · apply permitted_attempt (by simp)
          · intro _ _ _
            exact .done _
          · intro _
            apply hcreate
            · exact .ask (by simp) fun _ _ => .done _
            · apply permitted_removals_pairWith hreplay hlock
              intro _
              exact hstate (by simpa using hexisted)
  | unix =>
      have hrest := hrouting .unix (!existed) fun h => hstate (by simpa using h)
      refine .ask (by simp) fun reply _ => ?_
      cases reply with
      | done => exact hrest
      | missing => exact hcreate (.done _) hrest
      | failed => exact .done _

theorem permitted_vacant {other : PathBuf} {message : String} {rest : PairM Outcome}
    (h : ∀ reply, reply ≠ .done → ¬ Frees paths path ⟨.pathExists other, reply⟩ →
      Interaction.Permitted (· = .remove path) (Frees paths path) rest) :
    Interaction.Permitted (· = .remove path) (Frees paths path) (vacant other message rest) := by
  refine .ask (by simp) fun reply hfrees => ?_
  by_cases hdone : reply = .done
  · rw [if_pos hdone]
    exact .done _
  · rw [if_neg hdone]
    exact h reply hdone hfrees

/-- Except for its lock, a run removes no path that no answer has freed. -/
theorem permitted_removals_runPair (hlock : replayLockPath paths.replayState ≠ some path) :
    Interaction.Permitted (· = .remove path) (Frees paths path) (runPair platform paths) := by
  apply permitted_perform unguarded_remove.step
  apply permitted_vacant
  intro _ _ _
  apply permitted_vacant
  intro reply hfree hfrees
  have hreplay : path ≠ paths.replayState := by
    intro heq
    exact hfrees ⟨heq.symm, hfree, Or.inl heq⟩
  refine .ask (by simp) fun reply hfrees => ?_
  split
  · exact .done _
  · apply permitted_removals_pairFrom hreplay hlock
    intro hexisted heq
    exact hfrees ⟨heq.symm, of_decide_eq_false hexisted, Or.inr heq⟩

end Permits

section Keeping

variable {Location : Type} {plans : Side → Plan Location} {w : World Location} {side : Side}
  {event : Event} {change : Change}

/-- A path is the lock of the run, has been freed, or is not removed before it is. -/
def Party.Sound (plan : Plan Location) (p : Party) : Prop :=
  ∀ path, replayLockPath plan.paths.replayState = some path ∨
    (∃ event ∈ p.past, Frees plan.paths path event) ∨
    Interaction.Permitted (· = .remove path) (Frees plan.paths path) p.program

/-- No file of another is where a run guards. -/
structure Settled (plans : Side → Plan Location) (w : World Location) : Prop where
  sound : ∀ side, (w.parties side).Sound (plans side)
  own : ∀ side location, (w.parties side).Guards (plans side) location →
    ∀ file, w.files location = some file → file.creator = some side

theorem asks_iff {p : Party} {query : Query} : p.asks query = true ↔
    ∃ next, p.program = .ask query next := by
  unfold Party.asks
  cases p.program with
  | done result => simp
  | ask question next =>
      rw [decide_eq_true_iff]
      constructor
      · rintro rfl
        exact ⟨next, rfl⟩
      · rintro ⟨other, hother⟩
        cases hother
        rfl

theorem after_eq {p : Party} (h : p.asks event.1 = true) : ∃ next, p.program = .ask event.1 next ∧
    p.after event = ⟨next event.2, p.past ++ [event]⟩ := by
  obtain ⟨next, hnext⟩ := asks_iff.mp h
  refine ⟨next, hnext, ?_⟩
  unfold Party.after
  rw [hnext]

theorem Party.Sound.after {plan : Plan Location} {p : Party} (h : p.Sound plan)
    (hasks : p.asks event.1 = true) : (p.after event).Sound plan := by
  obtain ⟨next, hnext, hafter⟩ := after_eq hasks
  rw [hafter]
  intro path
  rcases h path with hlock | ⟨earlier, hmem, hfrees⟩ | hpermitted
  · exact Or.inl hlock
  · exact Or.inr (Or.inl ⟨earlier, List.mem_append_left _ hmem, hfrees⟩)
  · rw [hnext] at hpermitted
    by_cases hfrees : Frees plan.paths path event
    · exact Or.inr (Or.inl ⟨event, List.mem_append_right _ List.mem_cons_self, hfrees⟩)
    · exact Or.inr (Or.inr (hpermitted.next hfrees))

/-- What a run guards after an answer it has guarded before, or the answer has freed it. -/
theorem guards_after {plan : Plan Location} {p : Party} {location : Location}
    (hasks : p.asks event.1 = true) (h : (p.after event).Guards plan location) :
    p.Guards plan location ∨
      ∃ path, plan.locate path = location ∧ Frees plan.paths path event := by
  obtain ⟨next, hnext, hafter⟩ := after_eq hasks
  rw [hafter] at h
  rcases h.2 with hlock | ⟨path, hpath, freeing, hmem, hfrees⟩
  · exact Or.inl ⟨⟨event.1, hasks⟩, Or.inl hlock⟩
  · rcases List.mem_append.mp hmem with hpast | hlast
    · exact Or.inl ⟨⟨event.1, hasks⟩, Or.inr ⟨path, hpath, freeing, hpast, hfrees⟩⟩
    · obtain rfl := List.mem_singleton.mp hlast
      exact Or.inr ⟨path, hpath, hfrees⟩

/-- A run that removes a file guards its location. -/
theorem Party.Sound.guards {plan : Plan Location} {p : Party} {path : PathBuf} (h : p.Sound plan)
    (hasks : p.asks (.remove path) = true) : p.Guards plan (plan.locate path) := by
  refine ⟨⟨_, hasks⟩, ?_⟩
  rcases h path with hlock | hfreed | hpermitted
  · exact Or.inl ⟨path, hlock, rfl⟩
  · exact Or.inr ⟨path, rfl, hfreed⟩
  · obtain ⟨next, hnext⟩ := asks_iff.mp hasks
    rw [hnext] at hpermitted
    exact absurd rfl hpermitted.not_guarded

theorem fileAt_eq {query : Query} {path : PathBuf} (h : query.path = some path) :
    w.fileAt plans side query = w.files ((plans side).locate path) := by
  rw [World.fileAt, h, Option.bind_some]

theorem settled_start {files : Location → Option File}
    (h : ∀ side lockPath, replayLockPath (plans side).paths.replayState = some lockPath →
      files ((plans side).locate lockPath) = none) :
    Settled plans (World.start plans files) := by
  constructor
  · intro side path
    by_cases hlock : replayLockPath (plans side).paths.replayState = some path
    · exact Or.inl hlock
    · exact Or.inr (Or.inr (permitted_removals_runPair hlock))
  · intro side location hguards file hfile
    rcases hguards.2 with ⟨lockPath, hlock, rfl⟩ | ⟨path, -, event, hmem, -⟩
    · have hsome : files ((plans side).locate lockPath) = some file := hfile
      rw [h side lockPath hlock] at hsome
      cases hsome
    · cases hmem

variable [DecidableEq Location]

theorem path_of_created {file : Option File} {content : List Byte}
    (h : answered file event (.created content) = true) :
    file = none ∧ ∃ path, event.1.path = some path := by
  obtain ⟨query, reply⟩ := event
  cases query with
  | create output path => exact ⟨Option.isNone_iff_eq_none.mp h, path, rfl⟩
  | lock path => exact ⟨Option.isNone_iff_eq_none.mp h, path, rfl⟩
  | _ => cases h

theorem remove_of_removed {file : Option File} (h : answered file event .removed = true) :
    ∃ path, event.1 = .remove path := by
  obtain ⟨query, reply⟩ := event
  cases query with
  | remove path => exact ⟨path, rfl⟩
  | _ => cases h

theorem changed_of_path {query : Query} {path : PathBuf} (h : query.path = some path) :
    w.changed plans side query change = Function.update w.files ((plans side).locate path)
      (change.applied side (w.files ((plans side).locate path))) := by
  unfold World.changed
  rw [h]

theorem changed_of_none {query : Query} (h : query.path = none) :
    w.changed plans side query change = w.files := by
  unfold World.changed
  rw [h]

/-- What is at a location after a query was there before, or the query has created it. -/
theorem changed_eq_some {query : Query} {location : Location} {file : File}
    (h : w.changed plans side query change location = some file) :
    w.files location = some file ∨ ∃ path content, query.path = some path ∧
      change = .created content ∧ (plans side).locate path = location ∧
      file.creator = some side := by
  cases hpath : query.path with
  | none =>
      rw [changed_of_none hpath] at h
      exact Or.inl h
  | some path =>
      rw [changed_of_path hpath] at h
      by_cases hsame : location = (plans side).locate path
      · subst hsame
        rw [Function.update_self] at h
        cases change with
        | unchanged => exact Or.inl h
        | created content =>
            obtain rfl := Option.some.inj h
            exact Or.inr ⟨path, content, rfl, rfl, rfl, rfl⟩
        | removed => cases h
      · rw [Function.update_of_ne hsame] at h
        exact Or.inl h

/-- A query leaves a file where it neither creates nor removes one. -/
theorem changed_of_ne {query : Query} {location : Location}
    (h : ∀ path, query.path = some path → (plans side).locate path = location →
      change = .unchanged) :
    w.changed plans side query change location = w.files location := by
  cases hpath : query.path with
  | none => rw [changed_of_none hpath]
  | some path =>
      rw [changed_of_path hpath]
      by_cases hsame : location = (plans side).locate path
      · rw [h path hpath hsame.symm, hsame, Function.update_self]
        rfl
      · exact Function.update_of_ne hsame _ _

/-- A path that an answer frees has no file, or one that the run has created. -/
theorem own_of_frees {path : PathBuf} {file : File}
    (hanswered : answered (w.fileAt plans side event.1) event change = true)
    (hlookup : ∀ path, event = ⟨.pathExists path, .failed⟩ →
      w.files ((plans side).locate path) = none)
    (hfrees : Frees (plans side).paths path event)
    (hfile : w.changed plans side event.1 change ((plans side).locate path) = some file) :
    file.creator = some side := by
  rcases changed_eq_some hfile with hbefore | ⟨_, _, -, -, -, hown⟩
  · obtain ⟨query, reply⟩ := event
    cases query with
    | pathExists found =>
        obtain ⟨rfl, hreply, -⟩ := hfrees
        have hnone : w.files ((plans side).locate found) = none := by
          cases reply with
          | done => exact absurd rfl hreply
          | missing =>
              cases change with
              | unchanged => simpa [answered, World.fileAt, Query.path] using hanswered
              | created content => cases hanswered
              | removed => cases hanswered
          | failed => exact hlookup found rfl
        rw [hnone] at hbefore
        cases hbefore
    | create output created =>
        cases output with
        | locator =>
            cases reply with
            | done =>
                obtain rfl : created = path := hfrees
                cases change with
                | unchanged => cases hanswered
                | created content =>
                    rw [changed_of_path rfl, Function.update_self] at hfile
                    obtain rfl := Option.some.inj hfile
                    rfl
                | removed => cases hanswered
            | missing => cases hfrees
            | failed => cases hfrees
        | _ => cases hfrees
    | _ => cases hfrees
  · exact hown

theorem Settled.act (h : Settled plans w) (hexclusive : Exclusive plans w (.act side event change))
    (henabled : w.enabled plans (.act side event change) = true) :
    Settled plans (w.after plans (.act side event change)) := by
  obtain ⟨hasks, hanswered⟩ := Bool.and_eq_true_iff.mp henabled
  have hacting : (w.after plans (.act side event change)).parties side =
      (w.parties side).after event := Function.update_self ..
  have hwaiting : ∀ {other}, other ≠ side →
      (w.after plans (.act side event change)).parties other = w.parties other :=
    fun hne => Function.update_of_ne hne _ _
  constructor
  · intro other
    by_cases hother : other = side
    · subst hother
      rw [hacting]
      exact (h.sound other).after hasks
    · rw [hwaiting hother]
      exact h.sound other
  · intro other location hguards file hfile
    by_cases hother : other = side
    · subst hother
      rw [hacting] at hguards
      rcases guards_after hasks hguards with hbefore | ⟨path, rfl, hfrees⟩
      · rcases changed_eq_some hfile with hsome | ⟨_, _, -, -, -, hown⟩
        · exact h.own other location hbefore file hsome
        · exact hown
      · exact own_of_frees hanswered hexclusive.2 hfrees hfile
    · rw [hwaiting hother] at hguards
      rcases changed_eq_some hfile with hsome | ⟨path, content, hpath, hcreated, rfl, -⟩
      · exact h.own other location hguards file hsome
      · obtain rfl : other = side.other := by
          cases other <;> cases side <;> first | rfl | exact absurd rfl hother
        exact absurd hguards (hexclusive.1 content hcreated path hpath)

theorem Settled.step {m : Move Location} (h : Settled plans w) (hexclusive : Exclusive plans w m)
    (henabled : w.enabled plans m = true) : Settled plans (w.after plans m) := by
  cases m with
  | act side event change => exact h.act hexclusive henabled
  | appear place content =>
      refine ⟨h.sound, fun side location hguards file hfile => ?_⟩
      by_cases hsame : location = place
      · subst hsame
        exact absurd hguards (hexclusive side)
      · have hbefore : w.files location = some file := by
          rw [← hfile]
          exact (Function.update_of_ne hsame _ _).symm
        exact h.own side location hguards file hbefore
  | vanish place =>
      refine ⟨h.sound, fun side location hguards file hfile => ?_⟩
      by_cases hsame : location = place
      · subst hsame
        have hnone : (w.after plans (.vanish location)).files location = none :=
          Function.update_self ..
        rw [hnone] at hfile
        cases hfile
      · have hbefore : w.files location = some file := by
          rw [← hfile]
          exact (Function.update_of_ne hsame _ _).symm
        exact h.own side location hguards file hbefore
  | stop stopped =>
      have hstopped : (w.after plans (.stop stopped)).parties stopped =
          ⟨.done (.ok ()), (w.parties stopped).past⟩ := Function.update_self ..
      constructor
      · intro side
        by_cases hside : side = stopped
        · subst hside
          rw [hstopped]
          intro path
          exact Or.inr (Or.inr (.done _))
        · have hkept : (w.after plans (.stop stopped)).parties side = w.parties side :=
            Function.update_of_ne hside _ _
          rw [hkept]
          exact h.sound side
      · intro side location hguards
        by_cases hside : side = stopped
        · subst hside
          rw [hstopped] at hguards
          obtain ⟨query, hasks⟩ := hguards.1
          cases hasks
        · have hkept : (w.after plans (.stop stopped)).parties side = w.parties side :=
            Function.update_of_ne hside _ _
          rw [hkept] at hguards
          exact h.own side location hguards

theorem settled_run {files : Location → Option File}
    (hlocks : ∀ side lockPath, replayLockPath (plans side).paths.replayState = some lockPath →
      files ((plans side).locate lockPath) = none)
    (h : Run plans (Exclusive plans) (World.start plans files) w) : Settled plans w := by
  induction h with
  | start => exact settled_start hlocks
  | step m _ hexclusive henabled ih => exact ih.step hexclusive henabled

end Keeping

section Sample

/-- The first run's exchange with the phone fails; nothing else does, and nothing is there at
first. -/
def sampleAnswer (side : Side) : Query → Reply × Change
  | .step step => (if step = .exchange ∧ side = .first then .failed else .done, .unchanged)
  | .pathExists _ | .symlinkMetadata _ | .openState _ => (.missing, .unchanged)
  | .create _ _ | .lock _ => (.done, .created [])
  | .remove _ => (.done, .removed)
  | .createKeySet | .removeKeySet => (.done, .unchanged)

/-- Two runs with one replay path. -/
def samplePlans (side : Side) : Plan PathBuf where
  platform := .unix
  paths :=
    match side with
    | .first => samplePaths
    | .second => ⟨sampleRoot.join [68], sampleRoot.join [73], samplePaths.replayState,
        sampleRoot.join [76]⟩
  locate := id

/-- What a run does next. -/
def World.moveOf (w : World PathBuf) (side : Side) : Move PathBuf :=
  match (w.parties side).program with
  | .ask query _ => .act side ⟨query, (sampleAnswer side query).1⟩ (sampleAnswer side query).2
  | .done _ => .stop side

def World.play (w : World PathBuf) : List Side → World PathBuf
  | [] => w
  | side :: sides => (w.after samplePlans (w.moveOf side)).play sides

def World.plays (check : Move PathBuf → Bool) (w : World PathBuf) : List Side → Bool
  | [] => true
  | side :: sides => check (w.moveOf side) && w.enabled samplePlans (w.moveOf side) &&
      (w.after samplePlans (w.moveOf side)).plays check sides

theorem run_play {Allowed : World PathBuf → Move PathBuf → Prop} {check : Move PathBuf → Bool}
    {start w : World PathBuf} {sides : List Side} (hcheck : ∀ w m, check m = true → Allowed w m)
    (h : Run samplePlans Allowed start w) (hplays : w.plays check sides = true) :
    Run samplePlans Allowed start (w.play sides) := by
  induction sides generalizing w with
  | nil => exact h
  | cons side sides ih =>
      obtain ⟨hhead, hrest⟩ := Bool.and_eq_true_iff.mp hplays
      obtain ⟨hallowed, henabled⟩ := Bool.and_eq_true_iff.mp hhead
      exact ih (.step _ h (hcheck w _ hallowed) henabled) hrest

def sampleStart : World PathBuf := World.start samplePlans fun _ => none

/-- The move looks at no path or finds it missing, and changes nothing. -/
def quiet : Move PathBuf → Bool
  | .act _ event .unchanged => event.2 = .missing || event.1.path.isNone
  | _ => false

theorem exclusive_of_quiet {w : World PathBuf} {m : Move PathBuf} (h : quiet m = true) :
    Exclusive samplePlans w m := by
  cases m with
  | act side event change =>
      cases change with
      | unchanged =>
          constructor
          · intro content hcontent
            cases hcontent
          · rintro path rfl
            cases h
      | created content => cases h
      | removed => cases h
  | _ => cases h

/-- The first run up to the creation of its state. -/
def sampleLookups : World PathBuf := sampleStart.play (List.replicate 6 .first)

/-- The first run up to its exchange, the second up to its replay state, and the failure of the
exchange. -/
def sampleShared : World PathBuf :=
  sampleStart.play (List.replicate 12 .first ++ List.replicate 23 .second ++ [.first])

end Sample

end AgePluginPhone.Desktop.ExplicitPair
