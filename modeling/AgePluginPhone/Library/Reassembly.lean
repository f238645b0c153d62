import AgePluginPhone.Library.Fallible
import AgePluginPhone.Library.Fragments
import AgePluginPhone.Library.Transducer

/-!
# Reassembly of fragmented messages

A receiver collects the pieces of one transfer, in any order and repeatedly, within a window of
time that starts with the first. A piece that contradicts what was collected poisons the receiver
until it is reset.
-/

namespace AgePluginPhone.Library.Reassembly

open Fragments

/-- What the header of a transfer announces, and which messages it accepts. -/
structure Format (Header α : Type) where
  count : Header → ℕ
  total : Header → ℕ
  valid : Header → List α → Bool
  window : ℕ

structure Piece (Header α : Type) where
  header : Header
  index : ℕ
  chunk : List α

structure Assembly (Header α : Type) where
  header : Header
  started : ℕ
  slots : List (Option (List α))

inductive Receiver (Header α : Type)
  | idle
  | collecting (a : Assembly Header α)
  | poisoned

inductive Refusal
  | undecodable
  | poisoned
  | rollback
  | timeout
  | foreign
  | conflict
  | overflow
  | uneven
  | mismatch
  deriving DecidableEq

inductive Answer (α : Type)
  | progress (received total : ℕ)
  | complete (message : List α)
  | refused (why : Refusal)
  | none

inductive Call (Text : Type)
  | push (text : Text) (now : ℕ)
  | reset

variable {Header α Text : Type}

/-- All pieces but the last have the size of the first, and the last is not longer. -/
def EvenSizes (chunks : List (List α)) : Prop :=
  let size := (chunks.head?.getD []).length
  let last := chunks.getLast?.getD []
  0 < size ∧ (∀ chunk ∈ chunks.dropLast, chunk.length = size) ∧ 0 < last.length ∧
    last.length ≤ size

instance (chunks : List (List α)) : Decidable (EvenSizes chunks) :=
  inferInstanceAs (Decidable (_ ∧ _ ∧ _ ∧ _))

theorem evenSizes_pieces {size : ℕ} {message : List α} (hsize : 0 < size) (hmessage : message ≠ []) :
    EvenSizes (pieces size message) := by
  obtain ⟨count, hcount⟩ : ∃ count, pieceCount size message.length = count + 1 :=
    Nat.exists_eq_succ_of_ne_zero (pieceCount_pos hsize hmessage).ne'
  have hpieces : pieces size message = (List.range count).map (piece size message) ++
      [piece size message count] := by
    rw [pieces, hcount, List.range_succ, List.map_append]
    rfl
  have hhead : (pieces size message).head?.getD [] = piece size message 0 := by
    rw [pieces, hcount, List.range_succ_eq_map]
    rfl
  have hlast : (pieces size message).getLast?.getD [] = piece size message count := by
    rw [hpieces, List.getLast?_concat]
    rfl
  have hfull {i : ℕ} (hi : i < count) : (piece size message i).length = size :=
    piece_length hsize (by rw [hcount]; omega)
  have hpositive {i : ℕ} (hi : i ≤ count) : 0 < (piece size message i).length :=
    List.length_pos_of_ne_nil (piece_ne_nil hsize (by rw [hcount]; omega))
  dsimp only [EvenSizes]
  rw [hhead, hlast, hpieces, List.dropLast_concat]
  refine ⟨hpositive (Nat.zero_le count), ?_, hpositive le_rfl, ?_⟩
  · intro chunk hchunk
    obtain ⟨i, hi, rfl⟩ := List.mem_map.mp hchunk
    have hrange := List.mem_range.mp hi
    rw [hfull hrange, hfull (Nat.zero_lt_of_lt hrange)]
  · cases count with
    | zero => exact le_rfl
    | succ count =>
        rw [hfull (Nat.succ_pos count)]
        exact piece_length_le _

variable [DecidableEq Header] [DecidableEq α] (F : Format Header α)
  (decode : Text → Option (Piece Header α))

namespace Assembly

def start (p : Piece Header α) (now : ℕ) : Assembly Header α :=
  ⟨p.header, now, List.replicate (F.count p.header) none⟩

def insert (a : Assembly Header α) (p : Piece Header α) : Except Refusal (Assembly Header α) :=
  match a.slots[p.index]? with
  | some (some existing) => if existing = p.chunk then .ok a else .error .conflict
  | _ =>
      let slots := a.slots.set p.index (some p.chunk)
      if F.total a.header < weight slots then .error .overflow else .ok { a with slots }

def message (a : Assembly Header α) : Except Refusal (List α) := do
  let chunks ← okOr (a.slots.mapM id) .uneven
  ensure (EvenSizes chunks) .uneven
  ensure (chunks.flatten.length = F.total a.header) .uneven
  ensure (F.valid a.header chunks.flatten) .mismatch
  return chunks.flatten

def received (a : Assembly Header α) : ℕ := a.slots.countP Option.isSome

end Assembly

namespace Receiver

def finish (a : Assembly Header α) : Answer α × Receiver Header α :=
  if a.received ≠ F.count a.header then (.progress a.received (F.count a.header), .collecting a)
  else
    match a.message F with
    | .error why => (.refused why, .poisoned)
    | .ok message => (.complete message, .idle)

def place (a : Assembly Header α) (p : Piece Header α) : Answer α × Receiver Header α :=
  match a.insert F p with
  | .error why => (.refused why, .poisoned)
  | .ok a => finish F a

def accept (a : Assembly Header α) (p : Piece Header α) (now : ℕ) : Answer α × Receiver Header α :=
  if now < a.started then (.refused .rollback, .poisoned)
  else if F.window < now - a.started then (.refused .timeout, .poisoned)
  else if p.header ≠ a.header then (.refused .foreign, .collecting a)
  else place F a p

def push (r : Receiver Header α) (text : Text) (now : ℕ) : Answer α × Receiver Header α :=
  match r with
  | .poisoned => (.refused .poisoned, .poisoned)
  | r =>
      match decode text with
      | none => (.refused .undecodable, r)
      | some p =>
          match r with
          | .collecting a => accept F a p now
          | _ => accept F (.start F p now) p now

def respond (r : Receiver Header α) : Call Text → Answer α × Receiver Header α
  | .push text now => r.push F decode text now
  | .reset => (.none, .idle)

def isPoisoned : Receiver Header α → Bool
  | .poisoned => true
  | _ => false

/-- The answer to a call, and whether the receiver is poisoned after it. -/
def report (r : Receiver Header α) (call : Call Text) :
    (Answer α × Bool) × Receiver Header α :=
  let outcome := r.respond F decode call
  ((outcome.1, outcome.2.isPoisoned), outcome.2)

end Receiver

section Steps

variable {F decode} {a b : Assembly Header α} {p : Piece Header α} {now : ℕ} {text : Text}
  {r : Receiver Header α}

omit [DecidableEq Header] in
/-- What a piece does to the slots. -/
theorem Assembly.insert_eq_ok (h : a.insert F p = .ok b) :
    (b = a ∧ a.slots[p.index]? = some (some p.chunk)) ∨
      ((∀ existing, a.slots[p.index]? ≠ some (some existing)) ∧
        b = { a with slots := a.slots.set p.index (some p.chunk) }) := by
  rw [Assembly.insert] at h
  split at h
  · next existing hslot =>
      split_ifs at h with hsame
      obtain rfl := Except.ok.inj h
      exact Or.inl ⟨rfl, by rw [hslot, hsame]⟩
  · next hslot =>
      dsimp only at h
      split_ifs at h
      obtain rfl := Except.ok.inj h
      exact Or.inr ⟨hslot, rfl⟩

omit [DecidableEq Header] [DecidableEq α] in
theorem Assembly.message_refused {why : Refusal} (h : a.message F = .error why) :
    why = .uneven ∨ why = .mismatch := by
  rw [Assembly.message] at h
  cases hchunks : a.slots.mapM id with
  | none =>
      simp only [hchunks, okOr, error_bind] at h
      cases h
      exact Or.inl rfl
  | some chunks =>
      simp only [hchunks, okOr_some, ok_bind, ensure] at h
      split_ifs at h <;> cases h
      all_goals first
        | exact Or.inl rfl
        | exact Or.inr rfl

omit [DecidableEq Header] [DecidableEq α] in
theorem Assembly.message_eq_ok {message : List α} : a.message F = .ok message ↔
    ∃ chunks : List (List α), a.slots = chunks.map some ∧ EvenSizes chunks ∧
      message = chunks.flatten ∧ message.length = F.total a.header ∧
      F.valid a.header message = true := by
  simp only [Assembly.message, bind_eq_ok, ensure_eq_ok, okOr_eq_ok, exists_const, pure_eq_ok,
    Except.ok.injEq, mapM_id_eq_some]
  constructor
  · intro hparts
    obtain ⟨chunks, hslots, heven, htotal, hvalid, rfl⟩ := hparts
    exact ⟨chunks, hslots, heven, rfl, htotal, hvalid⟩
  · intro hparts
    obtain ⟨chunks, hslots, heven, rfl, htotal, hvalid⟩ := hparts
    exact ⟨chunks, hslots, heven, htotal, hvalid, rfl⟩

/-- What the receiver does with a piece while it collects. -/
theorem Receiver.accept_cases (a : Assembly Header α) (p : Piece Header α) (now : ℕ) :
    (∃ why, Receiver.accept F a p now = (.refused why, .poisoned)) ∨
      a.started ≤ now ∧ now ≤ a.started + F.window ∧
        ((p.header ≠ a.header ∧
            Receiver.accept F a p now = (.refused .foreign, .collecting a)) ∨
          p.header = a.header ∧ ∃ b, a.insert F p = .ok b ∧
            ((b.received ≠ F.count b.header ∧ Receiver.accept F a p now =
                (.progress b.received (F.count b.header), .collecting b)) ∨
              ∃ message, b.message F = .ok message ∧
                Receiver.accept F a p now = (.complete message, .idle))) := by
  by_cases hback : now < a.started
  · exact Or.inl ⟨.rollback, by rw [Receiver.accept, if_pos hback]⟩
  by_cases hlate : F.window < now - a.started
  · exact Or.inl ⟨.timeout, by rw [Receiver.accept, if_neg hback, if_pos hlate]⟩
  have haccept : Receiver.accept F a p now = if p.header ≠ a.header then
      (.refused .foreign, .collecting a) else Receiver.place F a p := by
    rw [Receiver.accept, if_neg hback, if_neg hlate]
  have hwindow : a.started ≤ now ∧ now ≤ a.started + F.window := by omega
  by_cases hheader : p.header = a.header
  · cases hinsert : a.insert F p with
    | error why =>
        exact Or.inl ⟨why, by rw [haccept, if_neg (not_not.mpr hheader), Receiver.place, hinsert]⟩
    | ok b =>
        have hfinish : Receiver.accept F a p now = Receiver.finish F b := by
          rw [haccept, if_neg (not_not.mpr hheader), Receiver.place, hinsert]
        rw [hfinish]
        by_cases hcount : b.received = F.count b.header
        · cases hmessage : b.message F with
          | error why =>
              exact Or.inl ⟨why, by rw [Receiver.finish, if_neg (not_not.mpr hcount), hmessage]⟩
          | ok message =>
              refine Or.inr ⟨hwindow.1, hwindow.2, Or.inr ⟨hheader, b, rfl, Or.inr ⟨message, hmessage, ?_⟩⟩⟩
              rw [Receiver.finish, if_neg (not_not.mpr hcount), hmessage]
        · refine Or.inr ⟨hwindow.1, hwindow.2, Or.inr ⟨hheader, b, rfl, Or.inl ⟨hcount, ?_⟩⟩⟩
          rw [Receiver.finish, if_pos hcount]
  · exact Or.inr ⟨hwindow.1, hwindow.2, Or.inl ⟨hheader, by rw [haccept, if_pos hheader]⟩⟩

end Steps

section Runs

variable {F decode} {calls past : List (Call Text)} {r : Receiver Header α} {text : Text} {now : ℕ}
  {p : Piece Header α}

variable (F decode) in
/-- The receiver after the calls. -/
def after (calls : List (Call Text)) : Receiver Header α :=
  Transducer.final (Receiver.respond F decode) .idle calls

/-- What a push comes to. -/
theorem push_cases (F : Format Header α) (decode : Text → Option (Piece Header α))
    (r : Receiver Header α) (text : Text) (now : ℕ) :
    (r = .poisoned ∧ r.push F decode text now = (.refused .poisoned, .poisoned)) ∨
      (decode text = none ∧ r.push F decode text now = (.refused .undecodable, r)) ∨
      ∃ p a, decode text = some p ∧ (r = .collecting a ∨ r = .idle ∧ a = .start F p now) ∧
        r.push F decode text now = Receiver.accept F a p now := by
  cases r with
  | poisoned => exact Or.inl ⟨rfl, rfl⟩
  | idle =>
      refine Or.inr ?_
      cases hpiece : decode text with
      | none => exact Or.inl ⟨rfl, by simp only [Receiver.push, hpiece]⟩
      | some p =>
          exact Or.inr ⟨p, _, rfl, Or.inr ⟨rfl, rfl⟩, by simp only [Receiver.push, hpiece]⟩
  | collecting a =>
      refine Or.inr ?_
      cases hpiece : decode text with
      | none => exact Or.inl ⟨rfl, by simp only [Receiver.push, hpiece]⟩
      | some p => exact Or.inr ⟨p, a, rfl, Or.inl rfl, by simp only [Receiver.push, hpiece]⟩

/-- A piece of another transfer that arrives in time leaves the assembly as it was. -/
theorem push_foreign {a : Assembly Header α} {p : Piece Header α} (hpiece : decode text = some p)
    (hheader : p.header ≠ a.header) (hfirst : a.started ≤ now)
    (hwindow : now ≤ a.started + F.window) :
    (Receiver.collecting a).push F decode text now = (.refused .foreign, .collecting a) := by
  have hback : ¬ now < a.started := by omega
  have hlate : ¬ F.window < now - a.started := by omega
  simp only [Receiver.push, hpiece, Receiver.accept, if_neg hback, if_neg hlate, if_pos hheader]

/-- The chunk was carried by one of the pushes, as the piece with this index, in time. -/
def Carried (F : Format Header α) (decode : Text → Option (Piece Header α))
    (pushes : List (Call Text)) (header : Header) (started i : ℕ) (chunk : List α) : Prop :=
  ∃ text now, Call.push text now ∈ pushes ∧ decode text = some ⟨header, i, chunk⟩ ∧
    started ≤ now ∧ now ≤ started + F.window

/-- The calls of an assembly: the push that began it, on an idle receiver, and those since. -/
structure Since (F : Format Header α) (decode : Text → Option (Piece Header α))
    (past : List (Call Text)) (header : Header) (started : ℕ) (pushes : List (Call Text)) :
    Prop where
  calls : ∃ earlier, past = earlier ++ pushes ∧ after F decode earlier = .idle
  began : ∃ text i chunk later, pushes = .push text started :: later ∧
    decode text = some ⟨header, i, chunk⟩
  unbroken : ∀ call ∈ pushes, call ≠ .reset

/-- What the state of a receiver says of the calls made on it. -/
def Explained (F : Format Header α) (decode : Text → Option (Piece Header α))
    (past : List (Call Text)) : Receiver Header α → Prop
  | .collecting a => a.slots.length = F.count a.header ∧
      ∃ pushes, Since F decode past a.header a.started pushes ∧
        ∀ i chunk, a.slots[i]? = some (some chunk) →
          Carried F decode pushes a.header a.started i chunk
  | _ => True

omit [DecidableEq Header] [DecidableEq α] in
theorem Carried.mono {pushes more : List (Call Text)} {header : Header} {started i : ℕ}
    {chunk : List α} (h : Carried F decode pushes header started i chunk)
    (hmore : ∀ call ∈ pushes, call ∈ more) : Carried F decode more header started i chunk := by
  obtain ⟨text, now, hcall, hrest⟩ := h
  exact ⟨text, now, hmore _ hcall, hrest⟩

theorem Since.push {pushes : List (Call Text)} {header : Header} {started : ℕ}
    (h : Since F decode past header started pushes) (text : Text) (now : ℕ) :
    Since F decode (past ++ [.push text now]) header started (pushes ++ [.push text now]) := by
  obtain ⟨⟨earlier, hpast, hidle⟩, ⟨first, i, chunk, later, hpushes, hfirst⟩, hunbroken⟩ := h
  refine ⟨⟨earlier, by rw [hpast, List.append_assoc], hidle⟩,
    ⟨first, i, chunk, later ++ [.push text now], by rw [hpushes]; rfl, hfirst⟩, ?_⟩
  intro call hcall
  rcases List.mem_append.mp hcall with hold | hnew
  · exact hunbroken call hold
  · rw [List.mem_singleton.mp hnew]
    intro hreset
    cases hreset

omit [DecidableEq Header] in
/-- A piece that is accepted is one of those the assembly was carried by. -/
theorem accept_explained {a b : Assembly Header α} {p : Piece Header α} {pushes : List (Call Text)}
    (hpiece : decode text = some p) (hcall : Call.push text now ∈ pushes)
    (hheader : p.header = a.header) (hfirst : a.started ≤ now)
    (hwindow : now ≤ a.started + F.window) (hinsert : a.insert F p = .ok b)
    (h : ∀ i chunk, a.slots[i]? = some (some chunk) →
      Carried F decode pushes a.header a.started i chunk) :
    b.header = a.header ∧ b.started = a.started ∧ b.slots.length = a.slots.length ∧
      ∀ i chunk, b.slots[i]? = some (some chunk) →
        Carried F decode pushes a.header a.started i chunk := by
  rcases Assembly.insert_eq_ok hinsert with ⟨rfl, -⟩ | ⟨-, rfl⟩
  · exact ⟨rfl, rfl, rfl, h⟩
  · refine ⟨rfl, rfl, List.length_set, fun i chunk hslot => ?_⟩
    rw [List.getElem?_set] at hslot
    split_ifs at hslot with hsame hlength
    · obtain rfl : p.chunk = chunk := by simpa using hslot
      obtain ⟨header, index, chunk⟩ := p
      obtain rfl : header = a.header := hheader
      obtain rfl : index = i := hsame
      exact ⟨text, now, hcall, hpiece, hfirst, hwindow⟩
    · exact h i chunk hslot

/-- Where a push is read while the receiver is not poisoned, its piece meets an assembly that the
calls up to it explain. -/
theorem meets {a : Assembly Header α} {p : Piece Header α} (hexplained : Explained F decode past r)
    (hidle : r = .idle → after F decode past = .idle) (hpiece : decode text = some p)
    (hstate : r = .collecting a ∨ r = .idle ∧ a = .start F p now) :
    a.slots.length = F.count a.header ∧ ∃ pushes, Call.push text now ∈ pushes ∧
      Since F decode (past ++ [.push text now]) a.header a.started pushes ∧
      ∀ i chunk, a.slots[i]? = some (some chunk) →
        Carried F decode pushes a.header a.started i chunk := by
  rcases hstate with rfl | ⟨hr, rfl⟩
  · obtain ⟨hlength, pushes, hsince, hcarried⟩ := hexplained
    refine ⟨hlength, pushes ++ [.push text now], by simp, hsince.push text now, ?_⟩
    intro i chunk hslot
    exact (hcarried i chunk hslot).mono fun call hcall => List.mem_append_left _ hcall
  · refine ⟨List.length_replicate, [.push text now], by simp, ⟨⟨past, rfl, hidle hr⟩, ?_, ?_⟩, ?_⟩
    · exact ⟨text, p.index, p.chunk, [], rfl, hpiece⟩
    · intro call hcall
      rw [List.mem_singleton.mp hcall]
      intro hreset
      cases hreset
    · intro i chunk hslot
      have hmem := List.mem_of_getElem? hslot
      simp only [Assembly.start] at hmem
      cases List.eq_of_mem_replicate hmem

theorem explained_step (hexplained : Explained F decode past r)
    (hafter : after F decode past = r) (call : Call Text) :
    Explained F decode (past ++ [call]) (r.respond F decode call).2 := by
  cases call with
  | reset => exact True.intro
  | push text now =>
      rw [Receiver.respond]
      rcases push_cases F decode r text now with
        ⟨-, hpush⟩ | ⟨-, hpush⟩ | ⟨p, a, hpiece, hstate, hpush⟩
      · rw [hpush]
        exact True.intro
      · rw [hpush]
        cases r with
        | collecting a =>
            obtain ⟨hlength, pushes, hsince, hcarried⟩ := hexplained
            refine ⟨hlength, _, hsince.push text now, fun i chunk hslot => ?_⟩
            exact (hcarried i chunk hslot).mono fun call hcall => List.mem_append_left _ hcall
        | idle => exact True.intro
        | poisoned => exact True.intro
      · obtain ⟨hlength, pushes, hcall, hsince, hcarried⟩ :=
          meets hexplained (fun hr => hafter.trans hr) hpiece hstate
        rw [hpush]
        rcases Receiver.accept_cases (F := F) a p now with ⟨_, hcase⟩ | ⟨hfirst, hwindow, hrest⟩
        · rw [hcase]
          exact True.intro
        · rcases hrest with ⟨-, hcase⟩ | ⟨hheader, b, hinsert, ⟨-, hcase⟩ | ⟨message, -, hcase⟩⟩
          · rw [hcase]
            exact ⟨hlength, pushes, hsince, hcarried⟩
          · obtain ⟨hsame, hstarted, hslots, hcarried⟩ :=
              accept_explained hpiece hcall hheader hfirst hwindow hinsert hcarried
            rw [hcase, Explained, hsame, hstarted]
            exact ⟨hslots.trans hlength, pushes, hsince, hcarried⟩
          · rw [hcase]
            exact True.intro

theorem explained_after (calls : List (Call Text)) :
    Explained F decode calls (after F decode calls) := by
  have hboth := Transducer.final_explained (Receiver.respond F decode)
    (fun past r => Explained F decode past r ∧ after F decode past = r) (s := .idle)
    ⟨True.intro, rfl⟩ (fun past r call h => ?_) calls
  · exact hboth.1
  · refine ⟨explained_step h.1 h.2 call, ?_⟩
    rw [after, Transducer.final_append, ← after, h.2]
    rfl

/-- What a completed message is made of. -/
theorem complete_explained {message : List α}
    (h : ((after F decode calls).push F decode text now).1 = .complete message) :
    ∃ header started pushes, ∃ chunks : List (List α),
      Since F decode (calls ++ [.push text now]) header started pushes ∧
      chunks.length = F.count header ∧ message = chunks.flatten ∧
      message.length = F.total header ∧ F.valid header message = true ∧
      ∀ i (hi : i < chunks.length), Carried F decode pushes header started i chunks[i] := by
  rcases push_cases F decode (after F decode calls) text now with
    ⟨-, hpush⟩ | ⟨-, hpush⟩ | ⟨p, a, hpiece, hstate, hpush⟩
  · rw [hpush] at h
    cases h
  · rw [hpush] at h
    cases h
  · obtain ⟨hlength, pushes, hcall, hsince, hcarried⟩ :=
      meets (explained_after calls) (fun hr => hr) hpiece hstate
    rw [hpush] at h
    rcases Receiver.accept_cases (F := F) a p now with ⟨_, hcase⟩ | ⟨hfirst, hwindow, hrest⟩
    · rw [hcase] at h
      cases h
    · rcases hrest with ⟨-, hcase⟩ | ⟨hheader, b, hinsert, ⟨-, hcase⟩ | ⟨found, hmessage, hcase⟩⟩
      · rw [hcase] at h
        cases h
      · rw [hcase] at h
        cases h
      · obtain ⟨hsame, hstarted, hslots, hcarried⟩ :=
          accept_explained hpiece hcall hheader hfirst hwindow hinsert hcarried
        rw [hcase] at h
        cases h
        obtain ⟨chunks, hchunks, -, hflatten, htotal, hvalid⟩ := Assembly.message_eq_ok.mp hmessage
        refine ⟨a.header, a.started, pushes, chunks, hsince, ?_, hflatten, hsame ▸ htotal,
          hsame ▸ hvalid, fun i hi => hcarried i chunks[i] ?_⟩
        · rw [← hlength, ← hslots, hchunks, List.length_map]
        · rw [hchunks, List.getElem?_map, List.getElem?_eq_getElem hi]
          rfl

end Runs

section Delivery

variable {F decode} {header : Header} {chunks : List (List α)} {started now : ℕ} {seen : List ℕ}
  {a b : Assembly Header α} {frames : ℕ → Text}

/-- The chunks make up the message their header announces. -/
structure Announced (F : Format Header α) (header : Header) (chunks : List (List α)) : Prop where
  count : F.count header = chunks.length
  total : F.total header = chunks.flatten.length
  even : EvenSizes chunks
  valid : F.valid header chunks.flatten = true

/-- The assembly holds exactly the chunks seen so far. -/
structure Gathering (header : Header) (chunks : List (List α)) (started : ℕ) (seen : List ℕ)
    (a : Assembly Header α) : Prop where
  header : a.header = header
  started : a.started = started
  length : a.slots.length = chunks.length
  slots : ∀ i (hi : i < chunks.length), a.slots[i]? = some (if i ∈ seen then some chunks[i] else none)

omit [DecidableEq Header] [DecidableEq α] in
theorem gathering_start {p : Piece Header α} (hannounced : Announced F p.header chunks) :
    Gathering p.header chunks now [] (.start F p now) := by
  refine ⟨rfl, rfl, ?_, fun i hi => ?_⟩
  · rw [Assembly.start, List.length_replicate, hannounced.count]
  · simp [Assembly.start, hannounced.count, hi]

omit [DecidableEq Header] [DecidableEq α] in
theorem Gathering.full (h : Gathering header chunks started seen a)
    (hall : ∀ i < chunks.length, i ∈ seen) : a.slots = chunks.map some := by
  apply List.ext_getElem?
  intro i
  by_cases hi : i < chunks.length
  · rw [h.slots i hi, if_pos (hall i hi), List.getElem?_map, List.getElem?_eq_getElem hi]
    rfl
  · rw [List.getElem?_eq_none (by rw [h.length]; omega), List.getElem?_eq_none (by simpa using hi)]

omit [DecidableEq Header] [DecidableEq α] in
theorem Gathering.received_ne (h : Gathering header chunks started seen a)
    (hmissing : ∃ i < chunks.length, i ∉ seen) : a.received ≠ chunks.length := by
  intro hreceived
  rw [← h.length, Assembly.received, countP_isSome_eq_length] at hreceived
  obtain ⟨held, hheld⟩ := hreceived
  obtain ⟨i, hi, hnotseen⟩ := hmissing
  have hslot := h.slots i hi
  rw [if_neg hnotseen, hheld, List.getElem?_map] at hslot
  cases hfound : held[i]? <;> simp [hfound] at hslot

omit [DecidableEq Header] in
/-- Every chunk of the message fits in, new or repeated. -/
theorem Gathering.insert (hannounced : Announced F header chunks)
    (h : Gathering header chunks started seen a) {i : ℕ} (hi : i < chunks.length) :
    ∃ b, a.insert F ⟨header, i, chunks[i]⟩ = .ok b ∧
      Gathering header chunks started (i :: seen) b := by
  have hslot := h.slots i hi
  by_cases hseen : i ∈ seen
  · rw [if_pos hseen] at hslot
    refine ⟨a, by simp only [Assembly.insert, hslot, if_true], h.header, h.started, h.length, ?_⟩
    intro j hj
    rw [h.slots j hj]
    by_cases hsame : j = i
    · simp [hsame, hseen]
    · simp [hsame]
  · rw [if_neg hseen] at hslot
    have hslots (j : ℕ) (hj : j < chunks.length) : (a.slots.set i (some chunks[i]))[j]? =
        some (if j ∈ i :: seen then some chunks[j] else none) := by
      rw [List.getElem?_set]
      by_cases hsame : i = j
      · subst hsame
        simp [h.length, hi]
      · rw [if_neg hsame, h.slots j hj]
        simp [Ne.symm hsame]
    have hweight : weight (a.slots.set i (some chunks[i])) ≤ F.total a.header := by
      rw [h.header, hannounced.total]
      refine weight_le (fun j chunk hheld => ?_) (by rw [List.length_set, h.length])
      have hj : j < chunks.length := by
        have hlt := (List.getElem?_eq_some_iff.mp hheld).1
        rwa [List.length_set, h.length] at hlt
      rw [hslots j hj] at hheld
      split_ifs at hheld with hmem
      · rw [List.getElem?_eq_getElem hj]
        simpa using hheld
      · simp at hheld
    refine ⟨{ a with slots := a.slots.set i (some chunks[i]) }, ?_, h.header, h.started, ?_, hslots⟩
    · simp only [Assembly.insert, hslot, if_neg (not_lt.mpr hweight)]
    · rw [List.length_set, h.length]

/-- Whether a push is one of the frames, or nothing the assembly takes notice of. -/
def Expected (decode : Text → Option (Piece Header α)) (header : Header) (count : ℕ)
    (frames : ℕ → Text) (text : Text) : Prop :=
  (∃ i < count, text = frames i) ∨ decode text = none ∨
    ∃ p, decode text = some p ∧ p.header ≠ header

/-- The receiver still waits after the answer. -/
inductive Waiting : Answer α → Prop
  | progress (received total : ℕ) : Waiting (.progress received total)
  | undecodable : Waiting (.refused .undecodable)
  | foreign : Waiting (.refused .foreign)

/-- A frame completes the message if none is missing after it, and is counted otherwise. -/
theorem push_frame (hannounced : Announced F header chunks)
    (h : Gathering header chunks started seen a) {i : ℕ} (hi : i < chunks.length)
    (hfirst : started ≤ now) (hwindow : now ≤ started + F.window) :
    ((∀ j < chunks.length, j ∈ i :: seen) ∧
        Receiver.accept F a ⟨header, i, chunks[i]⟩ now = (.complete chunks.flatten, .idle)) ∨
      (∃ j < chunks.length, j ∉ i :: seen) ∧ ∃ b received total,
        Gathering header chunks started (i :: seen) b ∧
        Receiver.accept F a ⟨header, i, chunks[i]⟩ now = (.progress received total, .collecting b) := by
  obtain ⟨b, hinsert, hnext⟩ := h.insert hannounced hi
  have hback : ¬ now < a.started := by rw [h.started]; omega
  have hlate : ¬ F.window < now - a.started := by rw [h.started]; omega
  have haccept : Receiver.accept F a ⟨header, i, chunks[i]⟩ now = Receiver.finish F b := by
    rw [Receiver.accept, if_neg hback, if_neg hlate, if_neg (by simp [h.header]), Receiver.place,
      hinsert]
  have hcount : F.count b.header = chunks.length := by rw [hnext.header, hannounced.count]
  rw [haccept, Receiver.finish, hcount]
  by_cases hall : ∀ j < chunks.length, j ∈ i :: seen
  · have hslots := hnext.full hall
    have hreceived : b.received = chunks.length := by
      rw [← hnext.length, Assembly.received, countP_isSome_eq_length]
      exact ⟨chunks, hslots⟩
    have hmessage : b.message F = .ok chunks.flatten := by
      refine Assembly.message_eq_ok.mpr ⟨chunks, hslots, hannounced.even, rfl, ?_, ?_⟩
      · rw [hnext.header, hannounced.total]
      · rw [hnext.header, hannounced.valid]
    exact Or.inl ⟨hall, by rw [if_neg (not_not.mpr hreceived), hmessage]⟩
  · have hmissing : ∃ j < chunks.length, j ∉ i :: seen := by
      by_contra hnone
      exact hall fun j hj => by_contra fun hnot => hnone ⟨j, hj, hnot⟩
    exact Or.inr ⟨hmissing, b, _, _, hnext, if_pos (hnext.received_ne hmissing)⟩

/-- The pushes as calls. -/
def pushCalls (pushes : List (Text × ℕ)) : List (Call Text) := pushes.map fun p => .push p.1 p.2

/-- The pushes up to the one that brings the last missing frame: all are answered as waiting but
that one, which completes the message. -/
structure Delivered (F : Format Header α) (decode : Text → Option (Piece Header α))
    (r : Receiver Header α) (chunks : List (List α)) (frames : ℕ → Text) (seen : List ℕ)
    (pushes before : List (Text × ℕ)) (last : Text × ℕ) : Prop where
  split : ∃ later, pushes = before ++ last :: later
  missing : ∃ i < chunks.length, i ∉ seen ∧ last.1 = frames i
  fresh : ∀ p ∈ before, p.1 ≠ last.1
  covered : ∀ i < chunks.length, i ∈ seen ∨ ∃ p ∈ before ++ [last], p.1 = frames i
  answers : ∃ early, Transducer.answers (Receiver.report F decode) r (pushCalls (before ++ [last])) =
    early ++ [(.complete chunks.flatten, false)] ∧ ∀ x ∈ early, Waiting x.1 ∧ x.2 = false

variable {pushes before : List (Text × ℕ)} {first last : Text × ℕ} {r s : Receiver Header α}

/-- A push that is answered as waiting comes before what is delivered after it. -/
theorem Delivered.cons {more : List ℕ} {answer : Answer α}
    (h : Delivered F decode s chunks frames more pushes before last)
    (hreport : r.report F decode (.push first.1 first.2) = ((answer, false), s))
    (hwaiting : Waiting answer) (hseen : ∀ i ∈ seen, i ∈ more)
    (hmore : ∀ i < chunks.length, i ∈ more → i ∈ seen ∨ first.1 = frames i)
    (hnew : first.1 ≠ last.1) :
    Delivered F decode r chunks frames seen (first :: pushes) (first :: before) last := by
  obtain ⟨⟨later, hsplit⟩, ⟨i, hi, hnot, hlast⟩, hfresh, hcovered, early, hanswers, hwait⟩ := h
  refine ⟨⟨later, by rw [hsplit]; rfl⟩, ⟨i, hi, fun hmem => hnot (hseen i hmem), hlast⟩, ?_, ?_,
    (answer, false) :: early, ?_, ?_⟩
  · exact List.forall_mem_cons.mpr ⟨hnew, hfresh⟩
  · intro j hj
    rcases hcovered j hj with hmem | ⟨p, hp, htext⟩
    · rcases hmore j hj hmem with hold | htext
      · exact Or.inl hold
      · exact Or.inr ⟨first, by simp, htext⟩
    · exact Or.inr ⟨p, List.mem_cons_of_mem _ hp, htext⟩
  · rw [List.cons_append, List.cons_append, ← hanswers]
    simp only [pushCalls, List.map_cons, Transducer.answers, hreport]
  · exact List.forall_mem_cons.mpr ⟨⟨hwaiting, rfl⟩, hwait⟩

variable (hannounced : Announced F header chunks)
  (hframes : ∀ i (hi : i < chunks.length), decode (frames i) = some ⟨header, i, chunks[i]⟩)

include hannounced hframes

/-- Once an assembly has begun, it completes with the last missing frame. -/
theorem delivered_collecting (h : Gathering header chunks started seen a)
    (hmissing : ∃ i < chunks.length, i ∉ seen)
    (hexpected : ∀ p ∈ pushes, Expected decode header chunks.length frames p.1 ∧
      started ≤ p.2 ∧ p.2 ≤ started + F.window)
    (hall : ∀ i < chunks.length, i ∈ seen ∨ ∃ p ∈ pushes, p.1 = frames i) :
    ∃ before last, Delivered F decode (.collecting a) chunks frames seen pushes before last := by
  induction pushes generalizing seen a with
  | nil =>
      obtain ⟨i, hi, hnot⟩ := hmissing
      rcases hall i hi with hmem | ⟨p, hp, -⟩
      · exact absurd hmem hnot
      · simp at hp
  | cons first pushes ih =>
      obtain ⟨⟨hkind, hfirst, hwindow⟩, hrest⟩ := List.forall_mem_cons.mp hexpected
      have hinjective {j : ℕ} (hj : j < chunks.length) (hne : decode first.1 ≠ decode (frames j)) :
          first.1 ≠ frames j := fun heq => hne (congrArg decode heq)
      rcases hkind with ⟨i, hi, htext⟩ | hnoise
      · have hpiece := hframes i hi
        rw [← htext] at hpiece
        have hpush : (Receiver.collecting a).push F decode first.1 first.2 =
            Receiver.accept F a ⟨header, i, chunks[i]⟩ first.2 := by
          simp only [Receiver.push, hpiece]
        rcases push_frame hannounced h hi hfirst hwindow with
          ⟨hcovered, hcomplete⟩ | ⟨hmore, b, received, total, hnext, hprogress⟩
        · refine ⟨[], first, ⟨pushes, rfl⟩, ⟨i, hi, ?_, htext⟩, by simp, ?_, [], ?_, by simp⟩
          · intro hseen
            obtain ⟨j, hj, hnot⟩ := hmissing
            rcases List.mem_cons.mp (hcovered j hj) with rfl | hmem
            · exact hnot hseen
            · exact hnot hmem
          · intro j hj
            rcases List.mem_cons.mp (hcovered j hj) with rfl | hmem
            · exact Or.inr ⟨first, by simp, htext⟩
            · exact Or.inl hmem
          · simp only [pushCalls, List.nil_append, List.map_cons, List.map_nil, Transducer.answers,
              Receiver.report, Receiver.respond, hpush, hcomplete]
            rfl
        · obtain ⟨before, last, hdelivered⟩ := ih hnext hmore hrest fun j hj => by
            rcases hall j hj with hmem | ⟨p, hp, hsame⟩
            · exact Or.inl (List.mem_cons_of_mem _ hmem)
            · rcases List.mem_cons.mp hp with rfl | hp
              · refine Or.inl (List.mem_cons.mpr (Or.inl ?_))
                have heq := hframes j hj
                rw [← hsame, hpiece] at heq
                simp only [Option.some.injEq, Piece.mk.injEq] at heq
                exact heq.2.1.symm
              · exact Or.inr ⟨p, hp, hsame⟩
          obtain ⟨j, hj, hnot, hlast⟩ := hdelivered.missing
          refine ⟨first :: before, last, hdelivered.cons ?_ (.progress received total)
            (fun k hk => List.mem_cons_of_mem _ hk) (fun k hk hmem => ?_) ?_⟩
          · rw [Receiver.report, Receiver.respond, hpush, hprogress]
            rfl
          · rcases List.mem_cons.mp hmem with rfl | hmem
            · exact Or.inr htext
            · exact Or.inl hmem
          · rw [hlast]
            refine hinjective hj fun heq => hnot ?_
            rw [hpiece, hframes j hj] at heq
            simp only [Option.some.injEq, Piece.mk.injEq] at heq
            exact List.mem_cons.mpr (Or.inl heq.2.1.symm)
      · obtain ⟨before, last, hdelivered⟩ := ih h hmissing hrest fun j hj => by
          rcases hall j hj with hmem | ⟨p, hp, hsame⟩
          · exact Or.inl hmem
          · rcases List.mem_cons.mp hp with rfl | hp
            · have hpiece := hframes j hj
              rw [← hsame] at hpiece
              rcases hnoise with hnone | ⟨q, hq, hother⟩
              · rw [hnone] at hpiece
                cases hpiece
              · rw [hq] at hpiece
                cases hpiece
                exact absurd rfl hother
            · exact Or.inr ⟨p, hp, hsame⟩
        obtain ⟨j, hj, -, hlast⟩ := hdelivered.missing
        have hnew : first.1 ≠ last.1 := by
          rw [hlast]
          refine hinjective hj fun heq => ?_
          rw [hframes j hj] at heq
          rcases hnoise with hnone | ⟨q, hq, hother⟩
          · rw [hnone] at heq
            cases heq
          · rw [hq] at heq
            cases heq
            exact hother rfl
        rcases hnoise with hnone | ⟨q, hq, hother⟩
        · refine ⟨first :: before, last, hdelivered.cons ?_ .undecodable (fun k hk => hk)
            (fun k _ hmem => Or.inl hmem) hnew⟩
          simp only [Receiver.report, Receiver.respond, Receiver.push, hnone]
          rfl
        · have hback : a.started ≤ first.2 := h.started.le.trans hfirst
          have hlate : first.2 ≤ a.started + F.window := by rwa [h.started]
          have hpush := push_foreign (F := F) hq (h.header ▸ hother) hback hlate
          refine ⟨first :: before, last, hdelivered.cons ?_ .foreign (fun k hk => hk)
            (fun k _ hmem => Or.inl hmem) hnew⟩
          rw [Receiver.report, Receiver.respond, hpush]
          rfl

/-- The first frame begins the assembly. -/
theorem delivered_idle (hfirst : ∃ i < chunks.length, first.1 = frames i)
    (hexpected : ∀ p ∈ first :: pushes, Expected decode header chunks.length frames p.1 ∧
      first.2 ≤ p.2 ∧ p.2 ≤ first.2 + F.window)
    (hall : ∀ i < chunks.length, ∃ p ∈ first :: pushes, p.1 = frames i) :
    ∃ before last, Delivered F decode .idle chunks frames [] (first :: pushes) before last := by
  obtain ⟨i, hi, htext⟩ := hfirst
  have hpiece := hframes i hi
  rw [← htext] at hpiece
  have hgather : Gathering header chunks first.2 []
      (.start F ⟨header, i, chunks[i]⟩ first.2) := gathering_start (p := ⟨header, i, chunks[i]⟩) hannounced
  obtain ⟨before, last, hsplit, hmissing, hfresh, hcovered, early, hanswers, hwaiting⟩ :=
    delivered_collecting hannounced hframes hgather ⟨i, hi, by simp⟩ hexpected fun j hj =>
      Or.inr (hall j hj)
  have hsame (rest : List (Call Text)) :
      Transducer.answers (Receiver.report F decode) .idle (.push first.1 first.2 :: rest) =
        Transducer.answers (Receiver.report F decode)
          (.collecting (.start F ⟨header, i, chunks[i]⟩ first.2)) (.push first.1 first.2 :: rest) := by
    simp only [Transducer.answers, Receiver.report, Receiver.respond, Receiver.push, hpiece]
  obtain ⟨later, hlater⟩ := hsplit
  refine ⟨before, last, ⟨later, hlater⟩, hmissing, hfresh, hcovered, early, ?_, hwaiting⟩
  rw [← hanswers]
  cases before with
  | nil =>
      obtain rfl : first = last := by simpa using (List.cons.inj hlater).1
      exact hsame []
  | cons p before =>
      obtain rfl : first = p := (List.cons.inj hlater).1
      exact hsame _

end Delivery

end AgePluginPhone.Library.Reassembly
