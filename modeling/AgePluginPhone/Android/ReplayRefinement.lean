import AgePluginPhone.Android.PairingReplay
import AgePluginPhone.Core.ReplayReference

/-!
# Refinement of the replay state on Android

The Kotlin store of one pairing accepts, holds and writes what the desktop's replay state does, over
every history of consumptions, closings and openings without storage faults.
-/

namespace AgePluginPhone.Android

open Library Cbor StorageM

open AgePluginPhone.Core (ReplayCall ReplayReference ReplayState UnixTime)

def Long.ofUnixTime (t : UnixTime) : Long := ⟨t.1, by omega, by omega⟩

/-- A time that is not negative, as the desktop holds it. -/
def Long.toU64 (t : Long) : U64 := Fin.ofNat _ t.1.toNat

theorem Long.toU64_ofUnixTime (t : UnixTime) : (Long.ofUnixTime t).toU64 = t.toU64 := by
  have ht := t.2
  apply Fin.ext
  simp only [toU64, ofUnixTime, UnixTime.toU64, Fin.val_ofNat, Int.toNat_natCast]
  exact Nat.mod_eq_of_lt (by omega)

theorem Long.toU64_le {a b : Long} (ha : 0 ≤ a.1) (hb : 0 ≤ b.1) : a.toU64 ≤ b.toU64 ↔ a ≤ b := by
  have hahigh := a.2.2
  have hbhigh := b.2.2
  simp only [toU64, Fin.le_def, Fin.val_ofNat]
  rw [Nat.mod_eq_of_lt (by omega), Nat.mod_eq_of_lt (by omega)]
  exact ⟨fun h => show a.1 ≤ b.1 by omega, fun h => by have : a.1 ≤ b.1 := h; omega⟩

theorem Long.toU64_val (t : Long) : t.toU64.val = t.1.toNat := by
  have hhigh := t.2.2
  simp only [toU64, Fin.val_ofNat]
  exact Nat.mod_eq_of_lt (by omega)

namespace Entry

def toReplay (e : Entry) : Core.ReplayEntry :=
  .request e.requestId e.nonce (Long.toU64 e.expiresAtUnix)

theorem duplicates_toReplay (a b : Entry) :
    a.toReplay.duplicates b.toReplay = true ↔ b.Clashes a := by
  simp [toReplay, Core.ReplayEntry.duplicates, Clashes]

theorem toReplay_le {a b : Entry} (ha : 0 ≤ a.expiresAtUnix.1) (hb : 0 ≤ b.expiresAtUnix.1) :
    a.toReplay ≤ b.toReplay ↔ a ≤ b := by
  have hle : (Long.toU64 a.expiresAtUnix).val ≤ (Long.toU64 b.expiresAtUnix).val ↔
      a.expiresAtUnix.1 ≤ b.expiresAtUnix.1 := Long.toU64_le ha hb
  change a.toReplay.sortKey ≤ b.toReplay.sortKey ↔ a.sortKey ≤ b.sortKey
  simp only [toReplay, Core.ReplayEntry.sortKey, sortKey, Prod.Lex.toLex_le_toLex, lt_irrefl,
    true_and, false_or, hle]

end Entry

/-- The desktop's view of a stored state. -/
def State.toReplay (s : State) : ReplayState :=
  ⟨⟨.phoneRequests, s.record.desktopId, s.record.identityId⟩, Long.toU64 s.lastSeenUnix,
    s.entries.map Entry.toReplay⟩

section Consumption

variable {p : Platform} {s : State}

theorem liveEntries_toReplay (hs : s.WellFormed p) {now : Long} (hnow : 0 ≤ now.1) :
    s.toReplay.liveEntries (Long.toU64 now) = (s.liveEntries now).map Entry.toReplay := by
  apply ExpiringSet.live_map
  intro e he
  exact Long.toU64_le hnow (hs.expires_nonneg e he)

/-- The two stores accept the same request and hold the same entries after it. -/
theorem consume_toReplay (hs : s.WellFormed p) {request : VerifiedRequest} {now : Long}
    (hexpires : 0 ≤ request.expiresAtUnix.1) (hnow : 0 ≤ now.1) {next : ReplayState} :
    s.toReplay.consumeRequest ⟨.phoneRequests, request.desktopId, request.identityId⟩
        request.requestId request.nonce (Long.toU64 request.expiresAtUnix) (Long.toU64 now)
        s.capacity = .ok next ↔
      ∃ t, s.consume request now = .ok t ∧ t.toReplay = next := by
  have hlive := liveEntries_toReplay hs hnow
  have hseen : 0 ≤ s.lastSeenUnix.1 := le_trans hs.created hs.seen
  have hsorted : ((s.liveEntries now ++ [request.entry]).insertionSort (· ≤ ·)).map Entry.toReplay =
      ((s.liveEntries now ++ [request.entry]).map Entry.toReplay).insertionSort (· ≤ ·) := by
    have hnonneg : ∀ e ∈ s.liveEntries now ++ [request.entry], 0 ≤ e.expiresAtUnix.1 := by
      intro e he
      rcases List.mem_append.mp he with he | he
      · exact hs.expires_nonneg e (ExpiringSet.mem_live.mp he).1
      · rw [List.mem_singleton.mp he]
        exact hexpires
    exact List.map_insertionSort _ _ _ _
      fun a ha b hb => (Entry.toReplay_le (hnonneg a ha) (hnonneg b hb)).symm
  have hfresh : (∀ e ∈ (s.liveEntries now).map Entry.toReplay,
      request.entry.toReplay.duplicates e = false) ↔
      ∀ e ∈ s.liveEntries now, ¬ e.Clashes request.entry := by
    simp only [List.forall_mem_map, ← Entry.duplicates_toReplay, Bool.not_eq_true]
  have hclock : Long.toU64 s.lastSeenUnix ≤ Long.toU64 now ↔ s.lastSeenUnix ≤ now :=
    Long.toU64_le hseen hnow
  have hunexpired : Long.toU64 now ≤ Long.toU64 request.expiresAtUnix ↔ now ≤ request.expiresAtUnix :=
    Long.toU64_le hnow hexpires
  have hlifetime : (Long.toU64 request.expiresAtUnix).val ≤
      (Long.toU64 now).val + Core.maxRequestLifetimeSecs ↔
        request.expiresAtUnix.1 - now.1 ≤ 300 := by
    rw [Long.toU64_val, Long.toU64_val, Core.maxRequestLifetimeSecs]
    omega
  have htime : (Long.toU64 request.expiresAtUnix).val ≤ Core.maxProtocolTime := by
    have := request.expiresAtUnix.2.2
    rw [Long.toU64_val, Core.maxProtocolTime]
    omega
  rw [ReplayState.consumeRequest, ReplayState.consume_eq_ok, hlive]
  simp only [State.consume_eq_ok]
  constructor
  · intro hparts
    obtain ⟨⟨_, hlivenow, hlong⟩, ⟨hscope, _⟩, hseenle, hnew, hroom, hnext⟩ := hparts
    simp only [State.toReplay, Core.ReplayScope.mk.injEq, true_and] at hscope
    refine ⟨_, ⟨⟨hscope.1.symm, hscope.2.symm⟩, ⟨⟨hnow, hunexpired.mp hlivenow⟩, hlifetime.mp hlong⟩,
      hclock.mp hseenle, hfresh.mp hnew, by simpa using hroom, rfl⟩, ?_⟩
    rw [hnext, State.toReplay, hsorted, List.map_append]
    rfl
  · intro hparts
    obtain ⟨t, ⟨⟨hdesktop, hidentity⟩, ⟨⟨_, hlivenow⟩, hlong⟩, hseenle, hnew, hroom, ht⟩, hnext⟩ :=
      hparts
    subst ht hnext
    refine ⟨⟨htime, hunexpired.mpr hlivenow, hlifetime.mpr hlong⟩, ⟨?_, rfl⟩, hclock.mpr hseenle,
      hfresh.mpr hnew, by simpa using hroom, ?_⟩
    · rw [hdesktop, hidentity]
      rfl
    · rw [State.toReplay, hsorted, List.map_append]
      rfl

end Consumption

section Sizes

variable {p : Platform} {s : State}

private theorem integer_length_le {n : Long} (h : 0 ≤ n.1) :
    (Item.encode (.integer n)).length ≤ 9 := by
  obtain ⟨k, hk⟩ := Int.eq_ofNat_of_zero_le h
  rw [hk]
  exact Item.encode_unsigned_length_le k

private theorem entryItem_length_le {e : Entry} (h : 0 ≤ e.expiresAtUnix.1) :
    (entryItem e).encode.length ≤ 61 := by
  obtain ⟨k, hk⟩ := Int.eq_ofNat_of_zero_le h
  rw [entryItem, hk]
  exact Item.encode_replay_entry_length_le e.requestId e.nonce k

/-- Every state a store holds fits the size limit of a file. -/
theorem State.WellFormed.encode_length_le (h : s.WellFormed p) :
    (encode s).length ≤ maxStateBytes := by
  obtain ⟨hlabel, hrecipient⟩ := validateRecord_eq_ok h.record
  have hcreated := h.created
  have hseen : 0 ≤ s.lastSeenUnix.1 := le_trans h.created h.seen
  have hbytes {n : ℕ} (b : Bytes n) (hn : n ≤ 33) : (Item.encode (.bytes b)).length ≤ 99 :=
    (Item.encode_bytes_length_le b.2.le).trans (by omega)
  have hunsigned (n : ℕ) : (Item.encode (.unsigned n)).length ≤ 99 :=
    (Item.encode_unsigned_length_le n).trans (by decide)
  have hlong {n : Long} (hn : 0 ≤ n.1) : (Item.encode (.integer n)).length ≤ 99 :=
    (integer_length_le hn).trans (by decide)
  have hentries : (Item.encode (.array (s.entries.map entryItem))).length ≤ 9 + 16384 * 61 := by
    refine (Item.encode_array_length_le (n := 61) ?_).trans ?_
    · simp only [List.forall_mem_map]
      intro e he
      exact entryItem_length_le (h.expires_nonneg e he)
    · have hcount := h.length.trans h.capacity.2
      rw [List.length_map]
      exact Nat.add_le_add_left (Nat.mul_le_mul_right _ hcount) _
  have hfields : ∀ item ∈ [Item.unsigned stateVersion, .bytes s.record.desktopId,
      .bytes s.record.identityId, .text s.record.desktopLabel, .text s.record.recipient,
      .bytes s.record.desktopSigningPublicKey, .bytes s.record.desktopSelectionPublicKey,
      .bytes s.record.phoneSigningPublicKey, .bytes s.record.offerDigest,
      .bytes s.record.transcriptFingerprint, .integer s.createdAtUnix, .integer s.lastSeenUnix,
      .unsigned s.capacity], item.encode.length ≤ 99 := by
    simp only [List.forall_mem_cons, List.not_mem_nil, false_implies, implies_true, and_true]
    exact ⟨hunsigned _, hbytes _ (by decide), hbytes _ (by decide),
      (Item.encode_text_length_le hlabel).trans (by decide), Item.encode_text_length_le hrecipient,
      hbytes _ (by decide), hbytes _ (by decide), hbytes _ (by decide), hbytes _ (by decide),
      hbytes _ (by decide), hlong hcreated, hlong hseen, hunsigned _⟩
  refine (Item.encode_array_concat_length_le hfields hentries).trans ?_
  simp [maxStateBytes]

end Sizes

section Steps

variable {p : Platform} {w : World} {scope : Digest}

/-- Without faults a commit installs the state in the file and in the open store. -/
theorem commit_quiet (w : World) (scope : Digest) {next : State} (hsize : (encode next).length ≤ maxStateBytes) :
    ∃ w', commit scope next w [] = ⟨.ok (), w', []⟩ ∧
      w'.files.lookup (.live scope) = some (encode next) ∧
      ∀ n, w'.opened.lookup n = if n = scope then (w.opened.lookup n).map
        fun store => { store with state := next } else w.opened.lookup n := by
  have hcheck : ensure ((encode next).length ≤ maxStateBytes) Category.capacity = .ok () :=
    ensure_true _ hsize
  have hrun : commit scope next w [] = ⟨.ok (), ((w.setFiles
      (((w.files.insert (freshTemporary w.files) (encode next)).erase
        (freshTemporary w.files)).insert (.live scope) (encode next))).updateStore scope
          fun store => { store with state := next }), []⟩ := by
    simp [commit, hcheck, bind_apply, recover, writeFile, replaceFile, settle, effect,
      World.setFiles]
  refine ⟨_, hrun, by simp, fun n => ?_⟩
  rw [World.updateStore_lookup]
  rfl

theorem usableStore_eq_ok {store : Store} : usableStore w scope = .ok store ↔
    w.opened.lookup scope = some store ∧ store.unusable = false := by
  simp only [usableStore, bind_eq_ok, okOr_eq_ok, ensure_eq_ok, exists_const, pure_eq_ok,
    Except.ok.injEq]
  constructor
  · intro hparts
    obtain ⟨found, hfound, husable, hsame⟩ := hparts
    subst hsame
    exact ⟨hfound, husable⟩
  · intro hparts
    exact ⟨store, hparts.1, hparts.2, rfl⟩

/-- The store on disk and in memory holds the reference state. -/
structure Refines (p : Platform) (record : StoredPairingRecord) (capacity : ℕ) (w : World)
    (r : ReplayReference) (s : State) : Prop where
  wellFormed : s.WellFormed p
  sameRecord : s.record = record
  sameCapacity : s.capacity = capacity
  state : s.toReplay = r.state
  file : w.files.lookup (.live (record.file p)) = some (encode s)
  opened : w.opened.lookup (record.file p) = if r.isOpen then some ⟨s, false⟩ else none

variable {record : StoredPairingRecord} {capacity : ℕ} {r : ReplayReference} {s : State}

/-- What the store writes is read back as the same state. -/
theorem Refines.read (h : Refines p record capacity w r s) :
    readState p (encode s) = .ok s :=
  readState_encode h.wellFormed h.wellFormed.encode_length_le

private theorem requireUnlocked_bind {α : Type} (f : Unit → Io α) (scope : Digest) (w : World)
    (faults : List Fault) : (requireUnlocked scope >>= f) w faults =
      (check (ensure (w.opened.lookup scope = none) .locked) >>= f) w faults := rfl

theorem createAt_refines {created : Long} {w₀ : World} (hcreate :
      w₀.execute (createAt p record created capacity) [] = (.ok (), w)) :
    0 ≤ created.1 ∧ Refines p record capacity w
      ⟨.new ⟨.phoneRequests, record.desktopId, record.identityId⟩ (Long.toU64 created), true⟩
      (initialState record created capacity) := by
  obtain ⟨hvalue, hstore⟩ := execute_ok hcreate
  unfold createAt at hvalue hstore
  obtain ⟨_, hrecord, hrun⟩ := check_bind_of_ok hvalue
  rw [hrun] at hvalue hstore
  obtain ⟨_, hcapacity, hrun⟩ := check_bind_of_ok hvalue
  rw [hrun] at hvalue hstore
  obtain ⟨_, hnow, hrun⟩ := check_bind_of_ok hvalue
  rw [hrun, requireUnlocked_bind] at hvalue hstore
  obtain ⟨_, hunlocked, hrun⟩ := check_bind_of_ok hvalue
  rw [hrun, load_bind_apply] at hvalue hstore
  obtain ⟨_, hfree, hrun⟩ := check_bind_of_ok hvalue
  rw [hrun] at hvalue hstore
  rw [ensure_eq_ok] at hnow hunlocked hfree
  have hwell : (initialState record created capacity).WellFormed p :=
    initialState_wellFormed ⟨hrecord, hcapacity, hnow, hunlocked, hfree⟩
  obtain ⟨w', hcommit, hfile, -⟩ :=
    commit_quiet w₀ (record.file p) hwell.encode_length_le
  have hregister : (commit (record.file p) (initialState record created capacity) >>= fun _ =>
      register (record.file p) (initialState record created capacity)) w₀ [] =
        ⟨.ok (), ⟨w'.files, w'.opened.insert (record.file p)
          ⟨initialState record created capacity, false⟩⟩, []⟩ := bind_ok hcommit
  have hw : World.mk w'.files (w'.opened.insert (record.file p)
      ⟨initialState record created capacity, false⟩) = w :=
    (congrArg Outcome.store hregister).symm.trans hstore
  subst hw
  exact ⟨hnow, hwell, rfl, rfl, rfl, hfile, AList.lookup_insert _⟩

end Steps

section Runs

variable (p : Platform) (record : StoredPairingRecord)

/-- The call of the Kotlin store for a call of the reference store. -/
def storeCall : ReplayCall → Call
  | .consume desktopId identityId requestId nonce expires now =>
      .consumeRequest (record.file p)
        ⟨desktopId, identityId, requestId, nonce, Long.ofUnixTime expires⟩ (Long.ofUnixTime now)
  | .close => .close (record.file p)
  | .open => .openAt record.desktopId record.identityId

namespace World

/-- The calls of a run meet no storage fault. -/
def storeStep (w : World) (call : ReplayCall) : Option World :=
  some (w.execute ((storeCall p record call).run p) []).2

def storeAccepted (w : World) (call : ReplayCall) : Option Bool :=
  some (w.execute ((storeCall p record call).run p) []).1.isOk

end World

variable {p record} {capacity : ℕ} {w : World} {r : ReplayReference} {s : State}

theorem consume_refines (h : Refines p record capacity w r s) (desktopId identityId requestId : Bytes 16)
    (nonce : Bytes 32) (expires now : UnixTime) :
    ∃ accepted w' r' t, w.execute ((storeCall p record
        (.consume desktopId identityId requestId nonce expires now)).run p) [] = (accepted, w') ∧
      r.call capacity (.consume desktopId identityId requestId nonce expires now) =
        (accepted.isOk, r') ∧ Refines p record capacity w' r' t := by
  let request : VerifiedRequest :=
    ⟨desktopId, identityId, requestId, nonce, Long.ofUnixTime expires⟩
  have hrun : (storeCall p record
      (.consume desktopId identityId requestId nonce expires now)).run p =
        consumeRequest (record.file p) request (Long.ofUnixTime now) := rfl
  have hopened := h.opened
  rw [hrun]
  cases hopen : r.isOpen with
  | false =>
      have hclosed : usableStore w (record.file p) = .error .storage := by
        simp [usableStore, hopened, hopen, okOr]
      refine ⟨.error (.failure .storage), w, r, s, ?_, ?_, h⟩
      · simp [World.execute, consumeRequest, hclosed, bind_apply]
      · simp [ReplayReference.call, hopen, Except.isOk, Except.toBool]
  | true =>
      have hstore : usableStore w (record.file p) = .ok ⟨s, false⟩ :=
        usableStore_eq_ok.mpr ⟨by rw [hopened, hopen]; rfl, rfl⟩
      have hconsume (next : ReplayState) : r.state.consumeRequest
          ⟨.phoneRequests, desktopId, identityId⟩ requestId nonce expires.toU64 now.toU64 capacity =
            .ok next ↔ ∃ t, s.consume request (Long.ofUnixTime now) = .ok t ∧ t.toReplay = next := by
        rw [← consume_toReplay h.wellFormed (Int.natCast_nonneg _) (Int.natCast_nonneg _), h.state,
          h.sameCapacity, Long.toU64_ofUnixTime, Long.toU64_ofUnixTime]
      cases hresult : s.consume request (Long.ofUnixTime now) with
      | error failure =>
          refine ⟨.error (.failure failure), w, r, s, ?_, ?_, h⟩
          · simp [World.execute, consumeRequest, hstore, bind_apply, hresult]
          · cases hnext : r.state.consumeRequest ⟨.phoneRequests, desktopId, identityId⟩ requestId
              nonce expires.toU64 now.toU64 capacity with
            | error _ => simp [ReplayReference.call, hopen, hnext, Except.isOk, Except.toBool]
            | ok next =>
                obtain ⟨t, ht, -⟩ := (hconsume next).mp hnext
                simp [hresult] at ht
      | ok t =>
          have hnext := (hconsume t.toReplay).mpr ⟨t, hresult, rfl⟩
          obtain ⟨hwell, hrecord⟩ := State.consume_wellFormed h.wellFormed hresult
          have hcapacity : t.capacity = s.capacity := by
            obtain ⟨-, -, -, -, -, ht⟩ := State.consume_eq_ok.mp hresult
            rw [ht]
          obtain ⟨w', hcommit, hfile, hopened'⟩ :=
            commit_quiet w (record.file p) hwell.encode_length_le
          refine ⟨.ok (), w', { r with state := t.toReplay }, t, ?_, ?_, ?_⟩
          · simp [World.execute, consumeRequest, hstore, bind_apply, hresult, hcommit]
          · simp [ReplayReference.call, hopen, hnext, Except.isOk, Except.toBool]
          · refine ⟨hwell, hrecord.trans h.sameRecord, hcapacity.trans h.sameCapacity, rfl, hfile, ?_⟩
            rw [hopened', if_pos rfl, hopened, hopen]
            rfl

theorem close_refines (h : Refines p record capacity w r s) :
    ∃ accepted w' r' t, w.execute ((storeCall p record .close).run p) [] = (accepted, w') ∧
      r.call capacity .close = (accepted.isOk, r') ∧ Refines p record capacity w' r' t := by
  refine ⟨.ok (), ⟨w.files, w.opened.erase (record.file p)⟩, { r with isOpen := false }, s, rfl, rfl,
    h.wellFormed, h.sameRecord, h.sameCapacity, h.state, h.file, ?_⟩
  exact AList.lookup_erase _ _

theorem open_refines (h : Refines p record capacity w r s) :
    ∃ accepted w' r' t, w.execute ((storeCall p record .open).run p) [] = (accepted, w') ∧
      r.call capacity .open = (accepted.isOk, r') ∧ Refines p record capacity w' r' t := by
  have hopened : w.opened.lookup (stateFile p record.desktopId record.identityId) =
      if r.isOpen then some ⟨s, false⟩ else none := h.opened
  cases hopen : r.isOpen with
  | true =>
      have hlocked : ensure (w.opened.lookup (stateFile p record.desktopId record.identityId) = none)
          Category.locked = .error .locked := by
        rw [hopened, hopen]
        exact ensure_false _ (by simp)
      refine ⟨.error (.failure .locked), w, r, s, ?_, ?_, h⟩
      · simp [World.execute, storeCall, Call.run, openAt, requireUnlocked, hlocked, bind_apply]
      · simp [ReplayReference.call, hopen, Except.isOk, Except.toBool]
  | false =>
      have hunlocked : ensure (w.opened.lookup (stateFile p record.desktopId record.identityId) =
          none) Category.locked = .ok () := by
        rw [hopened, hopen]
        exact ensure_true _ rfl
      have hrecord : ensure (s.record.desktopId = record.desktopId ∧
          s.record.identityId = record.identityId) Category.wrongScope = .ok () :=
        ensure_true _ (by rw [h.sameRecord]; exact ⟨rfl, rfl⟩)
      have hfile : w.files.lookup (.live (stateFile p record.desktopId record.identityId)) =
          some (encode s) := h.file
      refine ⟨.ok (), ⟨w.files, w.opened.insert (record.file p) ⟨s, false⟩⟩,
        { r with isOpen := true }, s, ?_, ?_, h.wellFormed, h.sameRecord, h.sameCapacity, h.state,
        h.file, AList.lookup_insert _⟩
      · simp [World.execute, storeCall, Call.run, openAt, requireUnlocked, hunlocked, bind_apply,
          hfile, h.read, hrecord, register]
        rfl
      · simp [ReplayReference.call, hopen, Except.isOk, Except.toBool]

theorem call_refines (h : Refines p record capacity w r s) (call : ReplayCall) :
    ∃ accepted w' r' t, w.execute ((storeCall p record call).run p) [] = (accepted, w') ∧
      r.call capacity call = (accepted.isOk, r') ∧ Refines p record capacity w' r' t := by
  cases call with
  | consume desktopId identityId requestId nonce expires now =>
      exact consume_refines h desktopId identityId requestId nonce expires now
  | close => exact close_refines h
  | «open» => exact open_refines h

/-- A request, a restart of the store, and the same request again. -/
def sampleCalls : List ReplayCall :=
  let request : ReplayCall := .consume sampleRecord.desktopId sampleRecord.identityId
    (Bytes.replicate 16 5) (Bytes.replicate 32 6) ⟨1300, by decide⟩ ⟨1000, by decide⟩
  [request, .close, .open, request]

def sampleCreated : Long := Long.ofUnixTime ⟨1000, by decide⟩

def samplePaired : World :=
  (World.empty.execute (createAt samplePlatform sampleRecord sampleCreated 4) []).2

private theorem samplePaired_created : World.empty.execute
    (createAt samplePlatform sampleRecord sampleCreated 4) [] = (.ok (), samplePaired) := by
  apply Prod.ext
  · decide +kernel
  · simp only [samplePaired]

end Runs

end AgePluginPhone.Android
