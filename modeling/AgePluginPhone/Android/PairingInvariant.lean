import AgePluginPhone.Android.PairingStateStore

/-!
# Pairing-directory invariant

What every call keeps true of the directory and of the open stores, whatever storage step of it
fails or is the last one before the process stops. `Live` and `Deleting` say which states a
state file and a pending-deletion file may hold; under `exclusive` no scope has both files.
-/

namespace AgePluginPhone.Android

open Library Cbor StorageM

@[simp] theorem World.setFiles_files (w : World) (files : Files) : (w.setFiles files).files = files :=
  rfl

@[simp] theorem World.setFiles_opened (w : World) (files : Files) :
    (w.setFiles files).opened = w.opened := rfl

@[simp] theorem World.updateStore_files (w : World) (scope : Digest) (f : Store → Store) :
    (w.updateStore scope f).files = w.files := by
  unfold World.updateStore
  split <;> rfl

theorem World.updateStore_lookup (w : World) (scope n : Digest) (f : Store → Store) :
    (w.updateStore scope f).opened.lookup n =
      if n = scope then (w.opened.lookup n).map f else w.opened.lookup n := by
  unfold World.updateStore
  by_cases hn : n = scope
  · subst hn
    cases h : w.opened.lookup n <;> simp [h]
  · cases h : w.opened.lookup scope <;> simp [AList.lookup_insert_ne hn, hn]

variable (Live Deleting : Digest → State → Prop) (exclusive : Prop)

structure FilesInvariant (files : Files) : Prop where
  live : ∀ n content, files.lookup (.live n) = some content →
    ∃ s, Live n s ∧ content = encode s ∧ content.length ≤ maxStateBytes
  deleting : ∀ n content, files.lookup (.deleting n) = some content →
    ∃ s, Deleting n s ∧ content = encode s ∧ content.length ≤ maxStateBytes
  separate : exclusive → ∀ n, files.lookup (.live n) ≠ none → files.lookup (.deleting n) = none

/-- An open usable store agrees with its state file, for every scope but the excepted ones. -/
def StoresInvariant (excepted : Digest → Prop) (w : World) : Prop :=
  ∀ n store, ¬ excepted n → w.opened.lookup n = some store → store.unusable = false →
    Live n store.state ∧ w.files.lookup (.live n) = some (encode store.state)

structure Invariant (w : World) : Prop where
  files : FilesInvariant Live Deleting exclusive w.files
  stores : StoresInvariant Live (fun _ => False) w

/-- What a call leaves behind when it does not return normally. -/
def Interrupted (stop : Stop Category) (w : World) : Prop :=
  match stop with
  | .failure _ => Invariant Live Deleting exclusive w
  | .crash => FilesInvariant Live Deleting exclusive w.files

variable {Live Deleting exclusive}

namespace FilesInvariant

variable {files : Files}

theorem of_lookup {files' : Files} (h : FilesInvariant Live Deleting exclusive files)
    (hlive : ∀ n, files'.lookup (.live n) = files.lookup (.live n))
    (hdeleting : ∀ n, files'.lookup (.deleting n) = files.lookup (.deleting n)) :
    FilesInvariant Live Deleting exclusive files' where
  live n content hn := h.live n content (hlive n ▸ hn)
  deleting n content hn := h.deleting n content (hdeleting n ▸ hn)
  separate he n hn := by
    rw [hdeleting]
    exact h.separate he n (hlive n ▸ hn)

theorem insert_temporary (h : FilesInvariant Live Deleting exclusive files) (k : ℕ)
    (content : List Byte) :
    FilesInvariant Live Deleting exclusive (files.insert (.temporary k) content) :=
  h.of_lookup (fun _ => AList.lookup_insert_ne (by simp))
    (fun _ => AList.lookup_insert_ne (by simp))

theorem erase_temporary (h : FilesInvariant Live Deleting exclusive files) (k : ℕ) :
    FilesInvariant Live Deleting exclusive (files.erase (.temporary k)) :=
  h.of_lookup (fun _ => AList.lookup_erase_ne (by simp)) (fun _ => AList.lookup_erase_ne (by simp))

theorem insert_live (h : FilesInvariant Live Deleting exclusive files) {n : Digest} {s : State}
    (hs : Live n s) (hsize : (encode s).length ≤ maxStateBytes)
    (hfree : exclusive → files.lookup (.deleting n) = none) :
    FilesInvariant Live Deleting exclusive (files.insert (.live n) (encode s)) where
  live k content hk := by
    by_cases hkn : k = n
    · subst hkn
      rw [AList.lookup_insert] at hk
      exact ⟨s, hs, (Option.some.inj hk).symm, by rw [← Option.some.inj hk]; exact hsize⟩
    · rw [AList.lookup_insert_ne (by simpa using hkn)] at hk
      exact h.live k content hk
  deleting k content hk := by
    rw [AList.lookup_insert_ne (by simp)] at hk
    exact h.deleting k content hk
  separate he k hk := by
    rw [AList.lookup_insert_ne (by simp)]
    by_cases hkn : k = n
    · subst hkn
      exact hfree he
    · rw [AList.lookup_insert_ne (by simpa using hkn)] at hk
      exact h.separate he k hk

theorem erase_deleting (h : FilesInvariant Live Deleting exclusive files) (n : Digest) :
    FilesInvariant Live Deleting exclusive (files.erase (.deleting n)) where
  live k content hk := by
    rw [AList.lookup_erase_ne (by simp)] at hk
    exact h.live k content hk
  deleting k content hk := by
    by_cases hkn : k = n
    · subst hkn
      simp at hk
    · rw [AList.lookup_erase_ne (by simpa using hkn)] at hk
      exact h.deleting k content hk
  separate he k hk := by
    rw [AList.lookup_erase_ne (by simp)] at hk
    by_cases hkn : k = n
    · subst hkn
      simp
    · rw [AList.lookup_erase_ne (by simpa using hkn)]
      exact h.separate he k hk

/-- Renaming a state file to its pending-deletion name. -/
theorem live_to_deleting (h : FilesInvariant Live Deleting exclusive files)
    (himp : ∀ n s, Live n s → Deleting n s) {n : Digest} {content : List Byte}
    (hn : files.lookup (.live n) = some content) :
    FilesInvariant Live Deleting exclusive
      ((files.erase (.live n)).insert (.deleting n) content) where
  live k c hk := by
    rw [AList.lookup_insert_ne (by simp)] at hk
    by_cases hkn : k = n
    · subst hkn
      simp at hk
    · rw [AList.lookup_erase_ne (by simpa using hkn)] at hk
      exact h.live k c hk
  deleting k c hk := by
    by_cases hkn : k = n
    · subst hkn
      rw [AList.lookup_insert] at hk
      obtain rfl := Option.some.inj hk
      obtain ⟨s, hs, hrest⟩ := h.live k content hn
      exact ⟨s, himp k s hs, hrest⟩
    · rw [AList.lookup_insert_ne (by simpa using hkn), AList.lookup_erase_ne (by simp)] at hk
      exact h.deleting k c hk
  separate he k hk := by
    rw [AList.lookup_insert_ne (by simp)] at hk
    by_cases hkn : k = n
    · subst hkn
      simp at hk
    · rw [AList.lookup_erase_ne (by simpa using hkn)] at hk
      rw [AList.lookup_insert_ne (by simpa using hkn), AList.lookup_erase_ne (by simp)]
      exact h.separate he k hk

end FilesInvariant

theorem StoresInvariant.of_lookup {excepted : Digest → Prop} {w w' : World}
    (h : StoresInvariant Live excepted w)
    (hstores : ∀ n, ¬ excepted n → w'.opened.lookup n = w.opened.lookup n)
    (hfiles : ∀ n, ¬ excepted n → w'.files.lookup (.live n) = w.files.lookup (.live n)) :
    StoresInvariant Live excepted w' := by
  intro n store hn hstore husable
  rw [hfiles n hn]
  exact h n store hn (hstores n hn ▸ hstore) husable

theorem Invariant.except {w : World} (h : Invariant Live Deleting exclusive w)
    (excepted : Digest → Prop) : StoresInvariant Live excepted w :=
  fun n store _ hstore husable => h.stores n store id hstore husable

/-- Marking the excepted store unusable restores the invariant. -/
theorem StoresInvariant.mark_unusable {scope : Digest} {w : World}
    (h : StoresInvariant Live (· = scope) w) :
    StoresInvariant Live (fun _ => False)
      (w.updateStore scope fun store => { store with unusable := true }) := by
  intro n store _ hstore husable
  rw [World.updateStore_lookup] at hstore
  by_cases hn : n = scope
  · rw [if_pos hn] at hstore
    obtain ⟨old, -, rfl⟩ := Option.map_eq_some_iff.mp hstore
    simp at husable
  · rw [if_neg hn] at hstore
    rw [World.updateStore_files]
    exact h n store hn hstore husable

/-- After a restart no store is open. -/
theorem FilesInvariant.restart {w : World} (h : FilesInvariant Live Deleting exclusive w.files) :
    Invariant Live Deleting exclusive { w with opened := ∅ } :=
  ⟨h, fun n store _ hstore => by simp at hstore⟩

section Calls

private theorem settle_triple {pre : World → Prop} {post : Unit → World → Prop}
    {stopped : Stop Category → World → Prop} (h : ∀ w, pre w → post () w ∧ ∀ stop, stopped stop w) :
    Triple pre settle post stopped :=
  Triple.effect (fun w _ hw heq => Option.some.inj heq ▸ h w hw) (fun w hw => (h w hw).2)

private theorem guard_triple {α : Type} {result : Except Category α} {pre : World → Prop}
    {post : α → World → Prop} (hok : ∀ a w, result = .ok a → pre w → post a w)
    (hinv : ∀ w, pre w → Invariant Live Deleting exclusive w) :
    Triple pre (check result) post (Interrupted Live Deleting exclusive) :=
  Triple.check hok fun _ w _ hw => hinv w hw

/-- The state between the storage steps of a commit: only the committed scope may disagree. -/
private structure Committing (Live Deleting : Digest → State → Prop) (exclusive : Prop)
    (scope : Digest) (w : World) : Prop where
  files : FilesInvariant Live Deleting exclusive w.files
  free : exclusive → w.files.lookup (.deleting scope) = none
  stores : StoresInvariant Live (· = scope) w

private theorem Committing.insert_temporary {scope : Digest} {w : World}
    (h : Committing Live Deleting exclusive scope w) (k : ℕ) (content : List Byte) :
    Committing Live Deleting exclusive scope
      (w.setFiles (w.files.insert (.temporary k) content)) where
  files := h.files.insert_temporary k content
  free he := by
    simpa [AList.lookup_insert_ne] using h.free he
  stores := h.stores.of_lookup (fun _ _ => rfl)
    fun _ _ => AList.lookup_insert_ne (by simp)

private theorem Committing.erase_temporary {scope : Digest} {w : World}
    (h : Committing Live Deleting exclusive scope w) (k : ℕ) :
    Committing Live Deleting exclusive scope (w.setFiles (w.files.erase (.temporary k))) where
  files := h.files.erase_temporary k
  free he := by
    simpa [AList.lookup_erase_ne] using h.free he
  stores := h.stores.of_lookup (fun _ _ => rfl) fun _ _ => AList.lookup_erase_ne (by simp)

private theorem Committing.replace {scope : Digest} {w : World} {next : State} {k : ℕ}
    (h : Committing Live Deleting exclusive scope w) (hnext : Live scope next)
    (hsize : (encode next).length ≤ maxStateBytes) :
    Committing Live Deleting exclusive scope
      (w.setFiles ((w.files.erase (.temporary k)).insert (.live scope) (encode next))) where
  files := by
    refine (h.files.erase_temporary k).insert_live hnext hsize fun he => ?_
    rw [AList.lookup_erase_ne (by simp)]
    exact h.free he
  free he := by
    rw [World.setFiles_files, AList.lookup_insert_ne (by simp), AList.lookup_erase_ne (by simp)]
    exact h.free he
  stores := h.stores.of_lookup (fun _ _ => rfl) fun n hn => by
    rw [World.setFiles_files, AList.lookup_insert_ne (by simpa using hn),
      AList.lookup_erase_ne (by simp)]

private theorem deleteTemporary_triple {scope : Digest} {k : ℕ} :
    Triple (Committing Live Deleting exclusive scope) (deleteFile (.temporary k))
      (fun _ => Committing Live Deleting exclusive scope)
      (fun _ => Committing Live Deleting exclusive scope) := by
  refine Triple.effect (fun w t hw heq => ?_) (fun w hw _ => hw)
  obtain rfl := Option.some.inj heq
  have := hw.erase_temporary k
  exact ⟨this, fun _ => this⟩

private theorem writeTemporary_triple {scope : Digest} {k : ℕ} {content : List Byte} :
    Triple (Committing Live Deleting exclusive scope) (writeFile (.temporary k) content)
      (fun _ w => Committing Live Deleting exclusive scope w ∧
        w.files.lookup (.temporary k) = some content)
      (fun _ => Committing Live Deleting exclusive scope) := by
  refine Triple.effect (fun w t hw heq => ?_) (fun w hw _ => hw)
  obtain rfl := Option.some.inj heq
  have := hw.insert_temporary k content
  exact ⟨⟨this, AList.lookup_insert _⟩, fun _ => this⟩

private theorem installTemporary_triple {scope : Digest} {k : ℕ} {next : State}
    (hnext : Live scope next) (hsize : (encode next).length ≤ maxStateBytes) :
    Triple (fun w => Committing Live Deleting exclusive scope w ∧
        w.files.lookup (.temporary k) = some (encode next))
      (replaceFile (.temporary k) (.live scope))
      (fun _ w => Committing Live Deleting exclusive scope w ∧
        w.files.lookup (.live scope) = some (encode next))
      (fun _ => Committing Live Deleting exclusive scope) := by
  refine Triple.effect (fun w t hw heq => ?_) (fun w hw _ => hw.1)
  simp only [hw.2, Option.map_some, Option.some.injEq] at heq
  obtain rfl := heq
  have := hw.1.replace (k := k) hnext hsize
  exact ⟨⟨this, AList.lookup_insert _⟩, fun _ => this⟩

/-- Once the file holds the next state, so does its store. -/
private theorem Committing.installed {scope : Digest} {w : World} {next : State}
    (h : Committing Live Deleting exclusive scope w) (hnext : Live scope next)
    (hfile : w.files.lookup (.live scope) = some (encode next)) :
    Invariant Live Deleting exclusive
      (w.updateStore scope fun store => { store with state := next }) where
  files := by simpa using h.files
  stores := by
    rintro n store - hstore husable
    rw [World.updateStore_lookup] at hstore
    rw [World.updateStore_files]
    by_cases hn : n = scope
    · rw [if_pos hn] at hstore
      obtain ⟨old, -, rfl⟩ := Option.map_eq_some_iff.mp hstore
      exact hn ▸ ⟨hnext, hfile⟩
    · rw [if_neg hn] at hstore
      exact h.stores n store hn hstore husable

/-- Failures between the storage steps of a commit, before the store is marked unusable. -/
private def CommitStopped (Live Deleting : Digest → State → Prop) (exclusive : Prop)
    (scope : Digest) (stop : Stop Category) (w : World) : Prop :=
  match stop with
  | .failure _ => Committing Live Deleting exclusive scope w
  | .crash => FilesInvariant Live Deleting exclusive w.files

private theorem Committing.stopped {scope : Digest} {w : World}
    (h : Committing Live Deleting exclusive scope w) (stop : Stop Category) :
    CommitStopped Live Deleting exclusive scope stop w := by
  cases stop with
  | failure => exact h
  | crash => exact h.files

private def installSteps (scope : Digest) (next : State) (temporary : FileName) : Io Unit := do
  settle
  writeFile temporary (encode next)
  replaceFile temporary (.live scope)
  settle
  modify (·.updateStore scope fun store => { store with state := next })

private theorem installSteps_triple {scope : Digest} {next : State} {k : ℕ}
    (hnext : Live scope next) (hsize : (encode next).length ≤ maxStateBytes) :
    Triple (Committing Live Deleting exclusive scope)
      (installSteps scope next (.temporary k))
      (fun _ w => Invariant Live Deleting exclusive w ∧
        w.files.lookup (.live scope) = some (encode next))
      (fun _ => Committing Live Deleting exclusive scope) := by
  have hsettle : Triple (Committing Live Deleting exclusive scope) settle
      (fun _ => Committing Live Deleting exclusive scope)
      (fun _ => Committing Live Deleting exclusive scope) :=
    settle_triple fun w hw => ⟨hw, fun _ => hw⟩
  have hsettled : Triple (fun w => Committing Live Deleting exclusive scope w ∧
        w.files.lookup (.live scope) = some (encode next)) settle
      (fun _ w => Committing Live Deleting exclusive scope w ∧
        w.files.lookup (.live scope) = some (encode next))
      (fun _ => Committing Live Deleting exclusive scope) :=
    settle_triple fun w hw => ⟨hw, fun _ => hw.1⟩
  refine Triple.bind hsettle fun _ => Triple.bind writeTemporary_triple fun _ =>
    Triple.bind (installTemporary_triple hnext hsize) fun _ => Triple.bind hsettled fun _ => ?_
  exact Triple.modify fun w hw => ⟨hw.1.installed hnext hw.2, by simpa using hw.2⟩

/-- `commit` installs the given state, or leaves the invariant intact. -/
theorem commit_triple {scope : Digest} {next : State} (hnext : Live scope next) :
    Triple (fun w => Invariant Live Deleting exclusive w ∧
        (exclusive → w.files.lookup (.deleting scope) = none))
      (commit scope next)
      (fun _ w => Invariant Live Deleting exclusive w ∧
        w.files.lookup (.live scope) = some (encode next))
      (Interrupted Live Deleting exclusive) := by
  have hdelete : ∀ k reason, Triple (Committing Live Deleting exclusive scope)
      (do deleteFile (.temporary k); (raise reason : Io Unit))
      (fun _ w => Invariant Live Deleting exclusive w ∧
        w.files.lookup (.live scope) = some (encode next))
      (CommitStopped Live Deleting exclusive scope) := by
    intro k reason
    refine Triple.bind (deleteTemporary_triple.weaken (fun _ h => h) (fun _ _ h => h)
      fun stop w h => h.stopped stop) fun _ => Triple.raise fun w h => h
  have hwrite : ∀ k, Triple (Committing Live Deleting exclusive scope)
      (writeFile (.temporary k) []) (fun _ => Committing Live Deleting exclusive scope)
      (CommitStopped Live Deleting exclusive scope) := fun k =>
    writeTemporary_triple.weaken (fun _ h => h) (fun _ _ h => h.1) fun stop _ h => h.stopped stop
  have hinstall : ∀ k, (encode next).length ≤ maxStateBytes →
      Triple (Committing Live Deleting exclusive scope)
        (recover (installSteps scope next (.temporary k)) fun reason => do
          deleteFile (.temporary k)
          raise reason)
        (fun _ w => Invariant Live Deleting exclusive w ∧
          w.files.lookup (.live scope) = some (encode next))
        (CommitStopped Live Deleting exclusive scope) := by
    intro k hsize
    refine Triple.recover (fun _ => Committing Live Deleting exclusive scope)
      ((installSteps_triple hnext hsize).weaken (fun _ h => h)
      (fun _ _ h => h) ?_) (hdelete k)
    intro stop w h
    cases stop with
    | failure => exact h
    | crash => exact h.files
  have hunusable : ∀ _ : Category, Triple (Committing Live Deleting exclusive scope)
      (do modify (·.updateStore scope fun store => { store with unusable := true })
          (raise .storage : Io Unit))
      (fun _ w => Invariant Live Deleting exclusive w ∧
        w.files.lookup (.live scope) = some (encode next))
      (Interrupted Live Deleting exclusive) := by
    intro _
    refine Triple.bind (Triple.modify fun w hw => ?_) fun _ => Triple.raise fun w h => h
    exact ⟨by simpa using hw.files, hw.stores.mark_unusable⟩
  have hsize : Triple (fun w => Invariant Live Deleting exclusive w ∧
        (exclusive → w.files.lookup (.deleting scope) = none))
      (check (ensure ((encode next).length ≤ maxStateBytes) .capacity))
      (fun _ w => Committing Live Deleting exclusive scope w ∧
        (encode next).length ≤ maxStateBytes)
      (Interrupted Live Deleting exclusive) :=
    guard_triple (fun _ w hok hw => ⟨⟨hw.1.files, hw.2, hw.1.except _⟩, ensure_eq_ok.mp hok⟩)
      fun _ hw => hw.1
  unfold commit
  refine Triple.bind hsize fun _ => ?_
  rintro w faults ⟨hw, hlen⟩
  refine Triple.recover (fun _ => Committing Live Deleting exclusive scope)
    ((Triple.bind (hwrite _) fun _ => hinstall _ hlen).weaken (fun _ h => h) (fun _ _ h => h) ?_)
    hunusable w faults hw
  intro stop w h
  cases stop <;> exact h

/-- A commit that returns has written the state file, whatever faults it met. -/
theorem commit_stores (scope : Digest) (next : State) :
    Triple (fun _ => True) (commit scope next)
      (fun _ w => w.files.lookup (.live scope) = some (encode next)) fun _ _ => True := by
  have hsettle {P : World → Prop} :
      Triple P settle (fun _ => P) fun _ _ => True :=
    Triple.effect (fun w w' hw h => ⟨Option.some.inj h ▸ hw, fun _ => trivial⟩)
      fun _ _ _ => trivial
  have hfail {α : Type} {P : α → World → Prop} (x : Io Unit) (reason : Category)
      (hx : Triple (fun _ => True) x (fun _ _ => True) fun _ _ => True) :
      Triple (fun _ => True) (do x; (raise reason : Io α)) P fun _ _ => True :=
    Triple.bind hx fun _ => Triple.raise fun _ _ => trivial
  have hwrite (name : FileName) (content : List Byte) :
      Triple (fun _ => True) (writeFile name content)
        (fun _ w => w.files.lookup name = some content) fun _ _ => True := by
    refine Triple.effect (fun w w' _ h => ⟨?_, fun _ => trivial⟩) fun _ _ _ => trivial
    obtain rfl := Option.some.inj h
    exact AList.lookup_insert _
  have hreplace (name : FileName) :
      Triple (fun w => w.files.lookup name = some (encode next))
        (replaceFile name (.live scope))
        (fun _ w => w.files.lookup (.live scope) = some (encode next)) fun _ _ => True := by
    refine Triple.effect (fun w w' hw h => ⟨?_, fun _ => trivial⟩) fun _ _ _ => trivial
    obtain ⟨content, hcontent, rfl⟩ := Option.map_eq_some_iff.mp h
    rw [hw] at hcontent
    obtain rfl := Option.some.inj hcontent
    exact AList.lookup_insert _
  have hdelete (name : FileName) : Triple (fun _ => True) (deleteFile name)
      (fun _ _ => True) fun _ _ => True :=
    Triple.effect (fun _ _ _ _ => ⟨trivial, fun _ => trivial⟩) fun _ _ _ => trivial
  unfold commit
  refine Triple.check_bind (fun _ _ => ?_) fun _ _ _ _ => trivial
  refine Triple.load_bind fun w => ?_
  refine Triple.recover_return ?_ fun _ =>
    hfail _ _ (Triple.modify fun _ _ => trivial)
  refine Triple.seq (fun _ _ => True) ((hwrite _ []).weaken (fun _ _ => trivial)
    (fun _ _ _ => trivial) fun _ _ _ => trivial) fun _ => ?_
  refine Triple.recover_return ?_ fun reason => hfail _ reason (hdelete _)
  refine Triple.bind hsettle fun _ => ?_
  refine Triple.bind (hwrite _ _) fun _ => ?_
  refine Triple.bind (hreplace _) fun _ => ?_
  refine Triple.bind hsettle fun _ => ?_
  exact Triple.modify fun w hw => by simpa using hw

variable {p : Platform}

theorem close_triple (scope : Digest) :
    Triple (fun w => FilesInvariant Live Deleting exclusive w.files ∧
        StoresInvariant Live (· = scope) w)
      (close scope) (fun _ => Invariant Live Deleting exclusive)
      (Interrupted Live Deleting exclusive) := by
  refine Triple.modify fun w hw => ⟨hw.1, ?_⟩
  rintro n store - hstore husable
  by_cases hn : n = scope
  · subst hn
    simp at hstore
  · rw [AList.lookup_erase_ne hn] at hstore
    exact hw.2 n store hn hstore husable

theorem register_triple {scope : Digest} {state : State} (hstate : Live scope state) :
    Triple (fun w => Invariant Live Deleting exclusive w ∧
        w.files.lookup (.live scope) = some (encode state))
      (register scope state) (fun _ => Invariant Live Deleting exclusive)
      (Interrupted Live Deleting exclusive) := by
  refine Triple.modify fun w hw => ⟨hw.1.files, ?_⟩
  rintro n store - hstore husable
  by_cases hn : n = scope
  · subst hn
    rw [AList.lookup_insert] at hstore
    obtain rfl := Option.some.inj hstore
    exact ⟨hstate, hw.2⟩
  · rw [AList.lookup_insert_ne hn] at hstore
    exact hw.1.stores n store id hstore husable

private theorem requireUnlocked_triple {pre : World → Prop} {scope : Digest}
    (hpre : ∀ w, pre w → Invariant Live Deleting exclusive w) :
    Triple pre (requireUnlocked scope) (fun _ w => pre w ∧ w.opened.lookup scope = none)
      (Interrupted Live Deleting exclusive) := by
  refine Triple.load_bind fun _ => Triple.check (fun _ w hok hw => ?_) fun _ w _ hw => hpre w hw.1
  obtain ⟨hw, rfl⟩ := hw
  exact ⟨hw, ensure_eq_ok.mp hok⟩

theorem execute_ok {α : Type} {x : Io α} {a : α} {w w' : World} {faults : List Fault}
    (h : w.execute x faults = (.ok a, w')) : (x w faults).value = .ok a ∧ (x w faults).store = w' := by
  unfold World.execute at h
  cases hvalue : (x w faults).value with
  | ok found =>
      simp only [hvalue, Prod.mk.injEq] at h
      exact h
  | error stop =>
      cases stop <;> simp [hvalue] at h

/-- The state `createAt` commits. -/
def initialState (record : StoredPairingRecord) (nowUnix : Long) (capacity : ℕ) : State :=
  ⟨record, nowUnix, nowUnix, capacity, []⟩

/-- `createAt` passes its checks and is about to commit a new state file. -/
def Starts (p : Platform) (record : StoredPairingRecord) (nowUnix : Long) (capacity : ℕ)
    (w : World) : Prop :=
  validateRecord p record = .ok () ∧ validateCapacity capacity = .ok () ∧ 0 ≤ nowUnix.1 ∧
    w.opened.lookup (record.file p) = none ∧ w.files.lookup (.live (record.file p)) = none

instance (p : Platform) (record : StoredPairingRecord) (nowUnix : Long) (capacity : ℕ)
    (w : World) : Decidable (Starts p record nowUnix capacity w) :=
  inferInstanceAs (Decidable (_ ∧ _))

/-- What a creation needs where it starts a new state file. -/
def Creatable (p : Platform) (Live : Digest → State → Prop) (exclusive : Prop)
    (record : StoredPairingRecord) (nowUnix : Long) (capacity : ℕ) (w : World) : Prop :=
  Starts p record nowUnix capacity w →
    (exclusive → w.files.lookup (.deleting (record.file p)) = none) ∧
      Live (record.file p) (initialState record nowUnix capacity)

theorem initialState_wellFormed {record : StoredPairingRecord} {nowUnix : Long} {capacity : ℕ}
    {w : World} (h : Starts p record nowUnix capacity w) :
    (initialState record nowUnix capacity).WellFormed p := by
  obtain ⟨hrecord, hcapacity, hnow, -, -⟩ := h
  exact ⟨hrecord, ensure_eq_ok.mp hcapacity, hnow, le_refl nowUnix, Nat.zero_le _,
    by simp [initialState], by simp [initialState], by simp [initialState]⟩

theorem createAt_triple (record : StoredPairingRecord) (nowUnix : Long) (capacity : ℕ) :
    Triple (fun w => Invariant Live Deleting exclusive w ∧
        Creatable p Live exclusive record nowUnix capacity w)
      (createAt p record nowUnix capacity) (fun _ => Invariant Live Deleting exclusive)
      (Interrupted Live Deleting exclusive) := by
  unfold createAt
  refine Triple.check_bind (fun _ hrecord => ?_) fun _ _ _ hw => hw.1
  refine Triple.check_bind (fun _ hcapacity => ?_) fun _ _ _ hw => hw.1
  refine Triple.check_bind (fun _ hnow => ?_) fun _ _ _ hw => hw.1
  refine Triple.bind (requireUnlocked_triple fun _ hw => hw.1) fun _ => ?_
  refine Triple.load_bind fun w₀ => ?_
  refine Triple.check_bind (fun _ hfree => ?_) fun _ _ _ hw => hw.1.1.1
  rintro w faults ⟨⟨⟨hw, hcreate⟩, hunlocked⟩, rfl⟩
  obtain ⟨hdeleting, hlive⟩ := hcreate
    ⟨hrecord, hcapacity, ensure_eq_ok.mp hnow, hunlocked, ensure_eq_ok.mp hfree⟩
  exact Triple.bind (commit_triple hlive) (fun _ => register_triple hlive) w faults
    ⟨hw, hdeleting⟩

theorem readState_encode {s : State} (h : s.WellFormed p)
    (hsize : (encode s).length ≤ maxStateBytes) : readState p (encode s) = .ok s := by
  have hne : 1 ≤ (encode s).length := List.length_pos_iff.mpr (Item.encode_ne_nil _)
  simp [readState, ensure, hne, hsize, decode_encode h]

theorem openAt_triple (hwell : ∀ n s, Live n s → s.WellFormed p) (desktopId identityId : Bytes 16) :
    Triple (Invariant Live Deleting exclusive) (openAt p desktopId identityId)
      (fun _ => Invariant Live Deleting exclusive) (Interrupted Live Deleting exclusive) := by
  unfold openAt
  refine Triple.bind (requireUnlocked_triple fun _ hw => hw) fun _ => ?_
  refine Triple.load_bind fun w₀ => ?_
  refine Triple.check_bind (fun content hcontent => ?_) fun _ _ _ hw => hw.1.1
  refine Triple.check_bind (fun state hread => ?_) fun _ _ _ hw => hw.1.1
  refine Triple.check_bind (fun _ _ => ?_) fun _ _ _ hw => hw.1.1
  rintro w faults ⟨⟨hw, -⟩, rfl⟩
  rw [okOr_eq_ok] at hcontent
  obtain ⟨s, hs, rfl, hsize⟩ := hw.files.live _ _ hcontent
  rw [readState_encode (hwell _ _ hs) hsize] at hread
  obtain rfl := Except.ok.inj hread
  exact Triple.bind (register_triple hs) (fun _ => Triple.pure' fun _ h => h) w faults
    ⟨hw, hcontent⟩

/-- A consumption leaves the file holding the consumed state. -/
theorem consumeRequest_triple (scope : Digest) (request : VerifiedRequest) (nowUnix : Long)
    (hconsume : ∀ s next, Live scope s → s.consume request nowUnix = .ok next → Live scope next) :
    Triple (Invariant Live Deleting exclusive) (consumeRequest scope request nowUnix)
      (fun _ w => Invariant Live Deleting exclusive w ∧ ∃ s next, Live scope s ∧
        s.consume request nowUnix = .ok next ∧
        w.files.lookup (.live scope) = some (encode next))
      (Interrupted Live Deleting exclusive) := by
  unfold consumeRequest
  refine Triple.load_bind fun w₀ => ?_
  refine Triple.check_bind (fun store hstore => ?_) fun _ _ _ hw => hw.1
  refine Triple.check_bind (fun next hnext => ?_) fun _ _ _ hw => hw.1
  rintro w faults ⟨hw, rfl⟩
  simp only [usableStore, bind_eq_ok, okOr_eq_ok, ensure_eq_ok, exists_const, pure_eq_ok,
    Except.ok.injEq] at hstore
  obtain ⟨store, hopen, husable, rfl⟩ := hstore
  obtain ⟨hlive, hfile⟩ := hw.stores _ _ id hopen husable
  have hnextLive := hconsume _ _ hlive hnext
  have hfree : exclusive → w.files.lookup (.deleting scope) = none :=
    fun he => hw.files.separate he scope (by simp [hfile])
  exact (commit_triple hnextLive w faults ⟨hw, hfree⟩).weaken
    (fun _ _ h => ⟨h.1, _, _, hlive, hnext, h.2⟩) fun _ _ h => h

/-- Between the rename and the removal only the revoked scope's store may disagree. -/
private structure Revoking (Live Deleting : Digest → State → Prop) (exclusive : Prop)
    (scope : Digest) (w : World) : Prop where
  files : FilesInvariant Live Deleting exclusive w.files
  stores : StoresInvariant Live (· = scope) w

private theorem Invariant.revoking {w : World} (h : Invariant Live Deleting exclusive w)
    (scope : Digest) : Revoking Live Deleting exclusive scope w :=
  ⟨h.files, h.except _⟩

private theorem Revoking.erase_deleting {scope : Digest} {w : World}
    (h : Revoking Live Deleting exclusive scope w) (n : Digest) :
    Revoking Live Deleting exclusive scope (w.setFiles (w.files.erase (.deleting n))) where
  files := h.files.erase_deleting n
  stores := h.stores.of_lookup (fun _ _ => rfl) fun _ _ => AList.lookup_erase_ne (by simp)

private theorem Revoking.rename {scope : Digest} {w : World} {content : List Byte}
    (h : Revoking Live Deleting exclusive scope w) (himp : ∀ n s, Live n s → Deleting n s)
    (hlive : w.files.lookup (.live scope) = some content) :
    Revoking Live Deleting exclusive scope
      (w.setFiles ((w.files.erase (.live scope)).insert (.deleting scope) content)) where
  files := h.files.live_to_deleting himp hlive
  stores := h.stores.of_lookup (fun _ _ => rfl) fun n hn => by
    rw [World.setFiles_files, AList.lookup_insert_ne (by simp),
      AList.lookup_erase_ne (by simpa using hn)]

private theorem Revoking.updateStore {scope : Digest} {w : World} (f : Store → Store)
    (h : Revoking Live Deleting exclusive scope w) :
    Revoking Live Deleting exclusive scope (w.updateStore scope f) where
  files := by simpa using h.files
  stores := h.stores.of_lookup
    (fun n hn => by rw [World.updateStore_lookup, if_neg hn]) fun _ _ => by simp

/-- `revokeState` may leave the store of its own scope without a file. -/
private theorem revokeState_triple (himp : ∀ n s, Live n s → Deleting n s) (scope : Digest) :
    Triple (Revoking Live Deleting exclusive scope) (revokeState scope)
      (fun _ => Revoking Live Deleting exclusive scope)
      (fun _ => Revoking Live Deleting exclusive scope) := by
  have hsettle : Triple (Revoking Live Deleting exclusive scope) settle
      (fun _ => Revoking Live Deleting exclusive scope)
      (fun _ => Revoking Live Deleting exclusive scope) :=
    settle_triple fun w hw => ⟨hw, fun _ => hw⟩
  have hmark : Triple (Revoking Live Deleting exclusive scope)
      (modify (·.updateStore scope fun store => { store with unusable := true }) : Io Unit)
      (fun _ => Revoking Live Deleting exclusive scope)
      (fun _ => Revoking Live Deleting exclusive scope) :=
    Triple.modify fun w hw => hw.updateStore _
  have hdelete : Triple (Revoking Live Deleting exclusive scope) (deleteFile (.deleting scope))
      (fun _ => Revoking Live Deleting exclusive scope)
      (fun _ => Revoking Live Deleting exclusive scope) := by
    refine Triple.effect (fun w t hw heq => ?_) fun w hw _ => hw
    obtain rfl := Option.some.inj heq
    exact ⟨hw.erase_deleting scope, fun _ => hw.erase_deleting scope⟩
  have hrename : Triple (Revoking Live Deleting exclusive scope)
      (replaceFile (.live scope) (.deleting scope))
      (fun _ => Revoking Live Deleting exclusive scope)
      (fun _ => Revoking Live Deleting exclusive scope) := by
    refine Triple.effect (fun w t hw heq => ?_) fun w hw _ => hw
    obtain ⟨content, hlive, rfl⟩ := Option.map_eq_some_iff.mp heq
    exact ⟨hw.rename himp hlive, fun _ => hw.rename himp hlive⟩
  unfold revokeState
  refine Triple.load_bind fun w₀ => Triple.check_bind (fun _ _ => ?_) fun _ _ _ hw => hw.1
  refine Triple.recover (fun _ => Revoking Live Deleting exclusive scope) ?_ fun _ => ?_
  · refine Triple.load_bind fun w₁ => Triple.check_bind (fun _ _ => ?_) fun _ _ _ hw => hw.1.1
    refine Triple.weaken (Triple.bind hrename fun _ => Triple.bind hsettle fun _ =>
      Triple.bind hmark fun _ => Triple.bind hdelete fun _ => hsettle)
      (fun _ hw => hw.1.1) (fun _ _ hw => hw) ?_
    intro stop w hw
    cases stop <;> exact hw
  · exact Triple.bind hmark fun _ => Triple.raise fun _ hw => hw

theorem deletePending_triple (scope : Digest) :
    Triple (Invariant Live Deleting exclusive) (deleteFile (.deleting scope))
      (fun _ => Invariant Live Deleting exclusive) (Interrupted Live Deleting exclusive) := by
  refine Triple.effect (fun w t hw heq => ?_) fun w hw stop => ?_
  · obtain rfl := Option.some.inj heq
    have hnext : Invariant Live Deleting exclusive
        (w.setFiles (w.files.erase (.deleting scope))) :=
      ⟨hw.files.erase_deleting scope,
        hw.stores.of_lookup (fun _ _ => rfl) fun _ _ => AList.lookup_erase_ne (by simp)⟩
    refine ⟨hnext, fun stop => ?_⟩
    cases stop with
    | failure => exact hnext
    | crash => exact hnext.files
  · cases stop with
    | failure => exact hw
    | crash => exact hw.files

private theorem settle_invariant : Triple (Invariant Live Deleting exclusive) settle
    (fun _ => Invariant Live Deleting exclusive) (Interrupted Live Deleting exclusive) := by
  refine settle_triple fun w hw => ⟨hw, fun stop => ?_⟩
  cases stop with
  | failure => exact hw
  | crash => exact hw.files

theorem revokeAt_triple (hwell : ∀ n s, Live n s → s.WellFormed p)
    (himp : ∀ n s, Live n s → Deleting n s) (identityId : Bytes 16) (handle : Digest) :
    Triple (Invariant Live Deleting exclusive) (revokeAt p identityId handle)
      (fun _ => Invariant Live Deleting exclusive) (Interrupted Live Deleting exclusive) := by
  unfold revokeAt finishPendingAt
  refine Triple.load_bind fun w₀ => Triple.check_bind (fun _ _ => ?_) fun _ _ _ hw => hw.1
  refine Triple.check_bind (fun found _ => ?_) fun _ _ _ hw => hw.1
  split_ifs with hpending
  · refine Triple.load_bind fun w₁ => Triple.check_bind (fun record _ => ?_) fun _ _ _ hw => hw.1.1
    exact (Triple.bind (deletePending_triple _) fun _ => settle_invariant).weaken
      (fun _ hw => hw.1.1) (fun _ _ hw => hw) fun _ _ hw => hw
  · refine Triple.load_bind fun w₁ => Triple.check_bind (fun record _ => ?_) fun _ _ _ hw => hw.1.1
    refine Triple.weaken (Triple.bind (openAt_triple hwell _ _) fun state => ?_)
      (fun _ hw => hw.1.1) (fun _ _ hw => hw) fun _ _ hw => hw
    refine Triple.bind (Triple.recover (fun _ => Revoking Live Deleting exclusive (record.file p))
      ?_ fun reason => ?_) fun _ => (close_triple (record.file p)).weaken
        (fun _ (hw : Revoking Live Deleting exclusive (record.file p) _) => ⟨hw.files, hw.stores⟩)
        (fun _ _ hw => hw) fun _ _ hw => hw
    · refine Triple.check_bind (fun _ _ => ?_) fun _ w _ hw => hw.revoking _
      refine (revokeState_triple himp _).weaken (fun _ hw => hw.revoking _) (fun _ _ hw => hw) ?_
      intro stop w hw
      cases stop with
      | failure => exact hw
      | crash => exact hw.files
    · refine Triple.bind ((close_triple (record.file p)).weaken
        (fun _ (hw : Revoking Live Deleting exclusive (record.file p) _) => ⟨hw.files, hw.stores⟩)
        (fun _ _ hw => hw) fun _ _ hw => hw) fun _ => Triple.raise fun _ hw => hw

theorem revokeAll_triple (hwell : ∀ n s, Live n s → s.WellFormed p)
    (himp : ∀ n s, Live n s → Deleting n s) (identityId : Bytes 16) :
    Triple (Invariant Live Deleting exclusive) (revokeAll p identityId)
      (fun _ => Invariant Live Deleting exclusive) (Interrupted Live Deleting exclusive) := by
  unfold revokeAll cleanupPendingAt
  refine Triple.load_bind fun w₀ => Triple.check_bind (fun _ _ => ?_) fun _ _ _ hw => hw.1
  refine Triple.weaken (Triple.bind
    (Triple.forM fun item _ => revokeAt_triple hwell himp identityId item.handle) fun _ => ?_)
    (fun _ hw => hw.1) (fun _ _ hw => hw) fun _ _ hw => hw
  refine Triple.load_bind fun w₁ => Triple.check_bind (fun _ _ => ?_) fun _ _ _ hw => hw.1
  refine Triple.weaken (Triple.bind (Triple.forM fun item _ => ?_) fun _ => ?_)
    (fun _ hw => hw.1) (fun _ _ hw => hw) fun _ _ hw => hw
  · refine Triple.load_bind fun w₂ => Triple.check_bind (fun _ _ => ?_) fun _ _ _ hw => hw.1
    exact (deletePending_triple _).weaken (fun _ hw => hw.1) (fun _ _ hw => hw) fun _ _ hw => hw
  · split_ifs
    · exact settle_invariant
    · exact Triple.pure' fun _ hw => hw

end Calls

end AgePluginPhone.Android
