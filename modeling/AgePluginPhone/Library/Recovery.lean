import AgePluginPhone.Library.Reassembly

/-!
# Recovery from earlier transfers

A receiver whose assembly has timed out is reset and takes the piece again. While the pieces of
several transfers arrive in any order, no push is refused for good, and a transfer that is repeated
long enough is completed, whatever came before it.
-/

namespace AgePluginPhone.Library.Reassembly

variable {Header α Text : Type} [DecidableEq Header] [DecidableEq α] (F : Format Header α)
  (decode : Text → Option (Piece Header α))

/-- A push that is made again on a reset receiver when the assembly has timed out. -/
def Receiver.offer (r : Receiver Header α) (text : Text) (now : ℕ) : Answer α × Receiver Header α :=
  match (r.push F decode text now).1 with
  | .refused .timeout => Receiver.idle.push F decode text now
  | _ => r.push F decode text now

/-- A transfer with its frames, which are read as the pieces of the message it announces. -/
structure Source where
  header : Header
  chunks : List (List α)
  frames : ℕ → Text
  announced : Announced F header chunks
  decoded : ∀ i (hi : i < chunks.length), decode (frames i) = some ⟨header, i, chunks[i]⟩

namespace Source

variable {F decode} (s : Source F decode)

def message : List α := s.chunks.flatten

def IsFrame (text : Text) : Prop := ∃ i < s.chunks.length, text = s.frames i

omit [DecidableEq Header] [DecidableEq α] in
theorem frames_injective {i j : ℕ} (hi : i < s.chunks.length) (hj : j < s.chunks.length)
    (h : s.frames i = s.frames j) : i = j := by
  have hdecoded := s.decoded i hi
  rw [h, s.decoded j hj] at hdecoded
  simpa using (congrArg (Option.map Piece.index) hdecoded).symm

omit [DecidableEq Header] [DecidableEq α] in
theorem not_noise {i : ℕ} (hi : i < s.chunks.length) {text : Text} (htext : text = s.frames i) :
    decode text ≠ none := by
  rw [htext, s.decoded i hi]
  exact Option.some_ne_none _

omit [DecidableEq Header] [DecidableEq α] in
theorem nonempty : 0 < s.chunks.length := by
  apply Nat.pos_of_ne_zero
  intro hlength
  have heven := s.announced.even
  rw [List.length_eq_zero_iff.mp hlength] at heven
  exact absurd heven.1 (by simp)

end Source

section Refusals

variable {F decode} {a : Assembly Header α} {p : Piece Header α} {text : Text} {now : ℕ}
  {why : Refusal}

omit [DecidableEq Header] in
theorem Assembly.insert_refused (h : a.insert F p = .error why) :
    why = .conflict ∨ why = .overflow := by
  unfold Assembly.insert at h
  split at h
  · split_ifs at h
    exact Or.inl (Except.error.inj h).symm
  · dsimp only at h
    split_ifs at h
    exact Or.inr (Except.error.inj h).symm

omit [DecidableEq Header] in
/-- What a piece of the transfer under way is refused for. -/
theorem Receiver.place_refused (h : (Receiver.place F a p).1 = .refused why) :
    why = .conflict ∨ why = .overflow ∨ why = .uneven ∨ why = .mismatch := by
  unfold Receiver.place at h
  cases hinsert : a.insert F p with
  | error refusal =>
      rw [hinsert] at h
      obtain rfl := Answer.refused.inj h
      rcases Assembly.insert_refused hinsert with rfl | rfl <;> simp
  | ok b =>
      rw [hinsert] at h
      dsimp only at h
      unfold Receiver.finish at h
      by_cases hcount : b.received ≠ F.count b.header
      · rw [if_pos hcount] at h
        cases h
      · rw [if_neg hcount] at h
        cases hmessage : b.message F with
        | ok message =>
            rw [hmessage] at h
            cases h
        | error refusal =>
            rw [hmessage] at h
            obtain rfl := Answer.refused.inj h
            rcases Assembly.message_refused hmessage with rfl | rfl <;> simp

theorem Receiver.accept_ne_undecodable : (Receiver.accept F a p now).1 ≠ .refused .undecodable := by
  unfold Receiver.accept
  split_ifs
  · simp
  · simp
  · simp
  · intro h
    simpa using Receiver.place_refused h

theorem push_ne_undecodable {r : Receiver Header α} (hdecode : decode text = some p) :
    (r.push F decode text now).1 ≠ .refused .undecodable := by
  cases r with
  | poisoned => simp [Receiver.push]
  | idle =>
      simp only [Receiver.push, hdecode]
      exact Receiver.accept_ne_undecodable
  | collecting a =>
      simp only [Receiver.push, hdecode]
      exact Receiver.accept_ne_undecodable

theorem idle_push_ne_foreign :
    ((Receiver.idle : Receiver Header α).push F decode text now).1 ≠ .refused .foreign := by
  cases hdecode : decode text with
  | none => simp [Receiver.push, hdecode]
  | some p =>
      simp only [Receiver.push, hdecode]
      have hheader : p.header = (Assembly.start F p now).header := rfl
      unfold Receiver.accept
      rw [if_neg (not_not.mpr hheader)]
      split_ifs
      · simp
      · simp
      · intro h
        simpa using Receiver.place_refused h

end Refusals

section Offers

variable {F decode} {s other : Source F decode} {r : Receiver Header α} {a : Assembly Header α}
  {text : Text} {started now i : ℕ} {seen : List ℕ}

theorem offer_eq_push (h : (r.push F decode text now).1 ≠ .refused .timeout) :
    r.offer F decode text now = r.push F decode text now := by
  unfold Receiver.offer
  split
  · next htimeout => exact absurd htimeout h
  · rfl

theorem offer_noise (hdecode : decode text = none) (hr : r ≠ .poisoned) :
    r.offer F decode text now = (.refused .undecodable, r) := by
  have hpush : r.push F decode text now = (.refused .undecodable, r) := by
    cases r with
    | poisoned => exact absurd rfl hr
    | idle => simp only [Receiver.push, hdecode]
    | collecting a => simp only [Receiver.push, hdecode]
  rw [offer_eq_push (by simp [hpush]), hpush]

/-- The next piece begins an assembly of its own. -/
def Stale (F : Format Header α) (now : ℕ) : Receiver Header α → Prop
  | .idle => True
  | .collecting a => a.started + F.window < now
  | .poisoned => False

/-- A frame either completes the message or is gathered. -/
def Gathered (s : Source F decode) (started : ℕ) (seen : List ℕ)
    (outcome : Answer α × Receiver Header α) : Prop :=
  outcome = (.complete s.message, .idle) ∨
    (∃ j < s.chunks.length, j ∉ seen) ∧ ∃ b received total,
      Gathering s.header s.chunks started seen b ∧
        outcome = (.progress received total, .collecting b)

omit [DecidableEq Header] [DecidableEq α] in
theorem Gathered.answer_ne {outcome : Answer α × Receiver Header α}
    (h : Gathered s started seen outcome) : outcome.1 ≠ .refused .timeout := by
  rcases h with rfl | ⟨-, b, received, total, -, rfl⟩
  · simp
  · simp

theorem accept_gathered (h : Gathering s.header s.chunks started seen a) (hi : i < s.chunks.length)
    (hfirst : started ≤ now) (hwindow : now ≤ started + F.window) :
    Gathered s started (i :: seen) (Receiver.accept F a ⟨s.header, i, s.chunks[i]⟩ now) := by
  rcases push_frame s.announced h hi hfirst hwindow with ⟨-, hcomplete⟩ | hprogress
  · exact Or.inl hcomplete
  · exact Or.inr hprogress

theorem offer_own (h : Gathering s.header s.chunks started seen a) (hi : i < s.chunks.length)
    (htext : text = s.frames i) (hfirst : started ≤ now) (hwindow : now ≤ started + F.window) :
    Gathered s started (i :: seen) ((Receiver.collecting a).offer F decode text now) := by
  have hpush : (Receiver.collecting a).push F decode text now =
      Receiver.accept F a ⟨s.header, i, s.chunks[i]⟩ now := by
    rw [htext]
    simp only [Receiver.push, s.decoded i hi]
  have hgathered := accept_gathered h hi hfirst hwindow
  rw [← hpush] at hgathered
  rwa [offer_eq_push hgathered.answer_ne]

theorem offer_stale (hstale : Stale F now r) (hi : i < s.chunks.length)
    (htext : text = s.frames i) : Gathered s now [i] (r.offer F decode text now) := by
  have hidle : Receiver.idle.push F decode text now =
      Receiver.accept F (.start F ⟨s.header, i, s.chunks[i]⟩ now)
        ⟨s.header, i, s.chunks[i]⟩ now := by
    rw [htext]
    simp only [Receiver.push, s.decoded i hi]
  have hgathered : Gathered s now [i] (Receiver.idle.push F decode text now) := by
    rw [hidle]
    exact accept_gathered (gathering_start (p := ⟨s.header, i, s.chunks[i]⟩) s.announced) hi le_rfl
      (Nat.le_add_right _ _)
  cases r with
  | poisoned => exact hstale.elim
  | idle => rwa [offer_eq_push hgathered.answer_ne]
  | collecting a =>
      have hlate : a.started + F.window < now := hstale
      have hback : ¬ now < a.started := by omega
      have hwindow : F.window < now - a.started := by omega
      have hpush : (Receiver.collecting a).push F decode text now =
          (.refused .timeout, .poisoned) := by
        rw [htext]
        simp only [Receiver.push, s.decoded i hi, Receiver.accept, if_neg hback, if_pos hwindow]
      unfold Receiver.offer
      rw [hpush]
      exact hgathered

theorem offer_foreign (h : Gathering other.header other.chunks started seen a)
    (hother : s.header ≠ other.header) (hi : i < s.chunks.length) (htext : text = s.frames i)
    (hfirst : started ≤ now) (hwindow : now ≤ started + F.window) :
    (Receiver.collecting a).offer F decode text now = (.refused .foreign, .collecting a) := by
  have hdecode : decode text = some ⟨s.header, i, s.chunks[i]⟩ := htext ▸ s.decoded i hi
  have hpush : (Receiver.collecting a).push F decode text now =
      (.refused .foreign, .collecting a) :=
    push_foreign hdecode (h.header ▸ hother) (h.started ▸ hfirst) (h.started ▸ hwindow)
  rw [offer_eq_push (by simp [hpush]), hpush]

end Offers

section Tracking

variable {F decode} {sources : Set (Source F decode)}

/-- The receiver is idle or gathers one of the transfers, with a frame still missing. -/
inductive Tracked (sources : Set (Source F decode)) (now : ℕ) : Receiver Header α → Prop
  | idle : Tracked sources now .idle
  | collecting {s : Source F decode} {a : Assembly Header α} {started : ℕ} {seen : List ℕ} :
      s ∈ sources → Gathering s.header s.chunks started seen a →
      (∃ i < s.chunks.length, i ∉ seen) → started ≤ now → Tracked sources now (.collecting a)

/-- Progress, a message of one of the transfers, or a piece that is passed by. -/
inductive Harmless (sources : Set (Source F decode)) : Answer α → Prop
  | progress (received total : ℕ) : Harmless sources (.progress received total)
  | undecodable : Harmless sources (.refused .undecodable)
  | foreign : Harmless sources (.refused .foreign)
  | complete {s : Source F decode} : s ∈ sources → Harmless sources (.complete s.message)

/-- A frame of one of the transfers, or nothing that is read as a frame. -/
def Offered (sources : Set (Source F decode)) (text : Text) : Prop :=
  (∃ s ∈ sources, s.IsFrame text) ∨ decode text = none

variable {r : Receiver Header α} {text : Text} {now later : ℕ}

omit [DecidableEq Header] [DecidableEq α] in
theorem Tracked.ne_poisoned (h : Tracked sources now r) : r ≠ .poisoned := by
  intro hr
  rw [hr] at h
  cases h

omit [DecidableEq Header] [DecidableEq α] in
theorem Tracked.mono (h : Tracked sources now r) (hlater : now ≤ later) :
    Tracked sources later r := by
  cases h with
  | idle => exact .idle
  | collecting hs hgathering hmissing hstarted =>
      exact .collecting hs hgathering hmissing (hstarted.trans hlater)

omit [DecidableEq Header] [DecidableEq α] in
theorem Gathered.tracked {s : Source F decode} {started : ℕ} {seen : List ℕ}
    {outcome : Answer α × Receiver Header α} (h : Gathered s started seen outcome)
    (hs : s ∈ sources) (hstarted : started ≤ now) : Harmless sources outcome.1 ∧ Tracked sources now outcome.2 := by
  rcases h with rfl | ⟨hmissing, b, received, total, hgathering, rfl⟩
  · exact ⟨.complete hs, .idle⟩
  · exact ⟨.progress _ _, .collecting hs hgathering hmissing hstarted⟩

variable (hsources : ∀ s ∈ sources, ∀ other ∈ sources, s.header = other.header → s = other)

include hsources

/-- One push on a tracked receiver. -/
theorem offer_tracked (h : Tracked sources now r) (hnow : now ≤ later)
    (htext : Offered sources text) :
    Harmless sources (r.offer F decode text later).1 ∧
      Tracked sources later (r.offer F decode text later).2 := by
  rcases htext with ⟨s, hs, i, hi, htext⟩ | hnoise
  · cases h with
    | idle =>
        have hstale : Stale F later (.idle : Receiver Header α) := True.intro
        exact (offer_stale hstale hi htext).tracked hs le_rfl
    | @collecting other a started seen hother hgathering hmissing hstarted =>
        by_cases hwindow : later ≤ started + F.window
        · have hfirst := hstarted.trans hnow
          by_cases hheader : s.header = other.header
          · obtain rfl := hsources s hs other hother hheader
            exact (offer_own hgathering hi htext hfirst hwindow).tracked hs hfirst
          · rw [offer_foreign hgathering hheader hi htext hfirst hwindow]
            exact ⟨.foreign, .collecting hother hgathering hmissing hfirst⟩
        · have hstale : Stale F later (.collecting a) := by
            rw [Stale, hgathering.started]
            exact not_le.mp hwindow
          exact (offer_stale hstale hi htext).tracked hs le_rfl
  · rw [offer_noise hnoise h.ne_poisoned]
    exact ⟨.undecodable, h.mono hnow⟩

variable (F decode) in
omit hsources in
/-- A push as an event: the text and the time. -/
def Receiver.offered (r : Receiver Header α) (push : Text × ℕ) : Answer α × Receiver Header α :=
  r.offer F decode push.1 push.2

/-- No push of a run ends it, and what it completes are messages of the transfers. -/
theorem answers_harmless {pushes : List (Text × ℕ)} (h : Tracked sources now r)
    (hsorted : pushes.Pairwise fun p q => p.2 ≤ q.2) (hnow : ∀ p ∈ pushes, now ≤ p.2)
    (htexts : ∀ p ∈ pushes, Offered sources p.1) :
    ∀ answer ∈ Transducer.answers (Receiver.offered F decode) r pushes,
      Harmless sources answer := by
  induction pushes generalizing now r with
  | nil => simp [Transducer.answers]
  | cons first rest ih =>
      obtain ⟨hfirst, hrest⟩ := List.pairwise_cons.mp hsorted
      obtain ⟨hanswer, hnext⟩ :=
        offer_tracked hsources h (hnow first (by simp)) (htexts first (by simp))
      simp only [Transducer.answers, List.forall_mem_cons]
      constructor
      · exact hanswer
      · exact ih hnext hrest hfirst fun p hp => htexts p (List.mem_cons_of_mem _ hp)

theorem final_tracked {pushes : List (Text × ℕ)} (h : Tracked sources now r)
    (hsorted : pushes.Pairwise fun p q => p.2 ≤ q.2)
    (hnow : ∀ p ∈ pushes, now ≤ p.2 ∧ p.2 ≤ later) (hlater : now ≤ later)
    (htexts : ∀ p ∈ pushes, Offered sources p.1) :
    Tracked sources later (Transducer.final (Receiver.offered F decode) r pushes) := by
  induction pushes generalizing now r with
  | nil => exact h.mono hlater
  | cons first rest ih =>
      obtain ⟨hfirst, hrest⟩ := List.pairwise_cons.mp hsorted
      obtain ⟨hnow, hbound⟩ := List.forall_mem_cons.mp hnow
      have hnext := (offer_tracked hsources h hnow.1 (htexts first (by simp))).2
      apply ih hnext hrest
      · intro p hp
        exact ⟨hfirst p hp, (hbound p hp).2⟩
      · exact hnow.2
      · intro p hp
        exact htexts p (List.mem_cons_of_mem _ hp)

end Tracking

section Completion

variable {F decode} {s other : Source F decode} {r : Receiver Header α} {a : Assembly Header α}
  {first : Text × ℕ} {pushes rest : List (Text × ℕ)} {started bound limit : ℕ} {seen : List ℕ}

/-- A push by the bound completes the message. -/
def Completes (s : Source F decode) (r : Receiver Header α) (pushes : List (Text × ℕ)) (bound : ℕ) :
    Prop :=
  ∃ before push after, pushes = before ++ push :: after ∧ push.2 ≤ bound ∧
    ((Transducer.final (Receiver.offered F decode) r before).offer F decode push.1 push.2).1 =
      .complete s.message

theorem Completes.here (h : (r.offer F decode first.1 first.2).1 = .complete s.message)
    (hbound : first.2 ≤ bound) : Completes s r (first :: rest) bound :=
  ⟨[], first, rest, rfl, hbound, h⟩

theorem Completes.cons (h : Completes s (r.offer F decode first.1 first.2).2 rest bound) :
    Completes s r (first :: rest) bound := by
  obtain ⟨before, push, after, rfl, hbound, hcomplete⟩ := h
  exact ⟨first :: before, push, after, rfl, hbound, hcomplete⟩

theorem Completes.mono (h : Completes s r pushes bound) (hlimit : bound ≤ limit) :
    Completes s r pushes limit := by
  obtain ⟨before, push, after, hsplit, hbound, hcomplete⟩ := h
  exact ⟨before, push, after, hsplit, hbound.trans hlimit, hcomplete⟩

/-- A frame completes the message or is gathered; in the second case the rest has to complete it. -/
theorem Gathered.completes (h : Gathered s started seen (r.offer F decode first.1 first.2))
    (hbound : first.2 ≤ bound)
    (hrest : ∀ b, Gathering s.header s.chunks started seen b → (∃ i < s.chunks.length, i ∉ seen) →
      Completes s (.collecting b) rest bound) : Completes s r (first :: rest) bound := by
  rcases h with hcomplete | ⟨hmissing, b, received, total, hgathering, hprogress⟩
  · exact .here (by rw [hcomplete]) hbound
  · apply Completes.cons
    rw [hprogress]
    exact hrest b hgathering hmissing

/-- An assembly under way is completed by the frames that arrive within its window. -/
theorem completes_collecting (h : Gathering s.header s.chunks started seen a)
    (hmissing : ∃ i < s.chunks.length, i ∉ seen) (hsorted : pushes.Pairwise fun p q => p.2 ≤ q.2)
    (hlater : ∀ p ∈ pushes, started ≤ p.2)
    (htexts : ∀ p ∈ pushes, s.IsFrame p.1 ∨ decode p.1 = none)
    (hall : ∀ i < s.chunks.length, i ∈ seen ∨
      ∃ p ∈ pushes, p.1 = s.frames i ∧ p.2 ≤ started + F.window) :
    Completes s (.collecting a) pushes (started + F.window) := by
  induction pushes generalizing seen a with
  | nil =>
      obtain ⟨i, hi, hnot⟩ := hmissing
      rcases hall i hi with hmem | ⟨p, hp, -⟩
      · exact absurd hmem hnot
      · cases hp
  | cons first rest ih =>
      obtain ⟨hfirst, hrest⟩ := List.pairwise_cons.mp hsorted
      obtain ⟨hstart, hlater⟩ := List.forall_mem_cons.mp hlater
      obtain ⟨htext, htexts⟩ := List.forall_mem_cons.mp htexts
      have hwindow : first.2 ≤ started + F.window := by
        obtain ⟨i, hi, hnot⟩ := hmissing
        rcases hall i hi with hmem | ⟨p, hp, -, hbound⟩
        · exact absurd hmem hnot
        · rcases List.mem_cons.mp hp with rfl | hp
          · exact hbound
          · exact (hfirst p hp).trans hbound
      rcases htext with ⟨i, hi, htext⟩ | hnoise
      · apply (offer_own h hi htext hstart hwindow).completes hwindow
        intro b hgathering hmore
        apply ih hgathering hmore hrest hlater htexts
        intro j hj
        rcases hall j hj with hmem | ⟨p, hp, hframe, hbound⟩
        · exact Or.inl (List.mem_cons_of_mem _ hmem)
        · rcases List.mem_cons.mp hp with rfl | hp
          · rw [s.frames_injective hj hi (hframe.symm.trans htext)]
            exact Or.inl List.mem_cons_self
          · exact Or.inr ⟨p, hp, hframe, hbound⟩
      · apply Completes.cons
        rw [offer_noise hnoise (by simp)]
        apply ih h hmissing hrest hlater htexts
        intro j hj
        rcases hall j hj with hmem | ⟨p, hp, hframe, hbound⟩
        · exact Or.inl hmem
        · rcases List.mem_cons.mp hp with rfl | hp
          · exact absurd hnoise (s.not_noise hj hframe)
          · exact Or.inr ⟨p, hp, hframe, hbound⟩

/-- A frame that begins an assembly is followed by the others in time. -/
theorem completes_beginning {i : ℕ} (hstale : Stale F first.2 r) (hi : i < s.chunks.length)
    (htext : first.1 = s.frames i) (hsorted : (first :: rest).Pairwise fun p q => p.2 ≤ q.2)
    (htexts : ∀ p ∈ rest, s.IsFrame p.1 ∨ decode p.1 = none)
    (hall : ∀ j < s.chunks.length, ∃ p ∈ first :: rest,
      p.1 = s.frames j ∧ p.2 ≤ first.2 + F.window) :
    Completes s r (first :: rest) (first.2 + F.window) := by
  obtain ⟨hfirst, hrest⟩ := List.pairwise_cons.mp hsorted
  apply (offer_stale hstale hi htext).completes (Nat.le_add_right _ _)
  intro b hgathering hmissing
  apply completes_collecting hgathering hmissing hrest hfirst htexts
  intro j hj
  obtain ⟨p, hp, hframe, hbound⟩ := hall j hj
  rcases List.mem_cons.mp hp with rfl | hp
  · rw [s.frames_injective hj hi (hframe.symm.trans htext)]
    exact Or.inl (List.mem_singleton_self i)
  · exact Or.inr ⟨p, hp, hframe, hbound⟩

/-- From the time on, every frame is pushed within each window that begins by the limit. -/
def Repeated (s : Source F decode) (pushes : List (Text × ℕ)) (time limit : ℕ) : Prop :=
  ∀ x, time ≤ x → x ≤ limit → ∀ i < s.chunks.length,
    ∃ p ∈ pushes, p.1 = s.frames i ∧ x ≤ p.2 ∧ p.2 ≤ x + F.window

omit [DecidableEq Header] [DecidableEq α] in
/-- What is pushed before a frame counts is left out. -/
theorem Repeated.tail {time : ℕ} (h : Repeated s (first :: rest) time limit)
    (hfirst : decode first.1 = none ∨ first.2 < time) : Repeated s rest time limit := by
  intro x hx hlimit i hi
  obtain ⟨p, hp, hframe, hafter, hbound⟩ := h x hx hlimit i hi
  rcases List.mem_cons.mp hp with rfl | hp
  · rcases hfirst with hnoise | hearly
    · exact absurd hnoise (s.not_noise hi hframe)
    · omega
  · exact ⟨p, hp, hframe, hafter, hbound⟩

omit [DecidableEq Header] [DecidableEq α] in
theorem Repeated.mono {time earlier more : ℕ} (h : Repeated s pushes earlier more)
    (htime : earlier ≤ time) (hlimit : limit ≤ more) : Repeated s pushes time limit := by
  intro x hx hbound
  exact h x (htime.trans hx) (hbound.trans hlimit)

variable {time : ℕ}

/-- Where no assembly is under way, the next frame begins one. -/
theorem completes_stale (hstale : ∀ p ∈ pushes, Stale F p.2 r) (hr : r ≠ .poisoned)
    (hsorted : pushes.Pairwise fun p q => p.2 ≤ q.2) (hlater : ∀ p ∈ pushes, time ≤ p.2)
    (htexts : ∀ p ∈ pushes, s.IsFrame p.1 ∨ decode p.1 = none)
    (hrepeated : Repeated s pushes time (time + F.window)) :
    Completes s r pushes (time + 2 * F.window) := by
  induction pushes with
  | nil =>
      obtain ⟨p, hp, -⟩ := hrepeated time le_rfl (Nat.le_add_right _ _) 0 s.nonempty
      cases hp
  | cons first rest ih =>
      obtain ⟨hbegin, hstale⟩ := List.forall_mem_cons.mp hstale
      obtain ⟨hfirst, hrest⟩ := List.pairwise_cons.mp hsorted
      obtain ⟨hstart, hlater⟩ := List.forall_mem_cons.mp hlater
      obtain ⟨htext, htexts⟩ := List.forall_mem_cons.mp htexts
      rcases htext with ⟨i, hi, htext⟩ | hnoise
      · have hsoon : first.2 ≤ time + F.window := by
          obtain ⟨p, hp, -, -, hbound⟩ := hrepeated time le_rfl (Nat.le_add_right _ _) i hi
          rcases List.mem_cons.mp hp with rfl | hp
          · exact hbound
          · exact (hfirst p hp).trans hbound
        have hall : ∀ j < s.chunks.length, ∃ p ∈ first :: rest,
            p.1 = s.frames j ∧ p.2 ≤ first.2 + F.window := by
          intro j hj
          obtain ⟨p, hp, hframe, -, hbound⟩ := hrepeated first.2 hstart hsoon j hj
          exact ⟨p, hp, hframe, hbound⟩
        exact (completes_beginning hbegin hi htext hsorted htexts hall).mono (by omega)
      · apply Completes.cons
        rw [offer_noise hnoise hr]
        exact ih hstale hrest hlater htexts (hrepeated.tail (Or.inl hnoise))

/-- An assembly under way is completed, or times out and gives way to a new one. -/
theorem completes_passing (h : Gathering other.header other.chunks started seen a)
    (hother : s.header = other.header → s = other) (hsorted : pushes.Pairwise fun p q => p.2 ≤ q.2)
    (hlater : ∀ p ∈ pushes, started ≤ p.2)
    (htexts : ∀ p ∈ pushes, s.IsFrame p.1 ∨ decode p.1 = none)
    (hrepeated : Repeated s pushes (started + F.window + 1) (started + F.window + 1 + F.window)) :
    Completes s (.collecting a) pushes (started + F.window + 1 + 2 * F.window) := by
  induction pushes generalizing a seen with
  | nil =>
      obtain ⟨p, hp, -⟩ := hrepeated _ le_rfl (Nat.le_add_right _ _) 0 s.nonempty
      cases hp
  | cons first rest ih =>
      by_cases hwindow : first.2 ≤ started + F.window
      · obtain ⟨hfirst, hrest⟩ := List.pairwise_cons.mp hsorted
        obtain ⟨hstart, hlater⟩ := List.forall_mem_cons.mp hlater
        obtain ⟨htext, htexts⟩ := List.forall_mem_cons.mp htexts
        have htail := hrepeated.tail (Or.inr (Nat.lt_succ_of_le hwindow))
        rcases htext with ⟨i, hi, htext⟩ | hnoise
        · by_cases hheader : s.header = other.header
          · obtain rfl := hother hheader
            apply (offer_own h hi htext hstart hwindow).completes (by omega)
            intro b hgathering _
            exact ih hgathering hrest hlater htexts htail
          · apply Completes.cons
            rw [offer_foreign h hheader hi htext hstart hwindow]
            exact ih h hrest hlater htexts htail
        · apply Completes.cons
          rw [offer_noise hnoise (by simp)]
          exact ih h hrest hlater htexts htail
      · have hfirst : ∀ p ∈ first :: rest, first.2 ≤ p.2 :=
          List.forall_mem_cons.mpr ⟨le_rfl, (List.pairwise_cons.mp hsorted).1⟩
        apply completes_stale _ (by simp) hsorted _ htexts hrepeated
        · intro p hp
          have hlate := hfirst p hp
          rw [Stale, h.started]
          omega
        · intro p hp
          have hlate := hfirst p hp
          omega

variable {sources : Set (Source F decode)} {r : Receiver Header α}

/-- Whatever a tracked receiver has under way, a transfer that is repeated is completed. -/
theorem Tracked.completes (h : Tracked sources time r)
    (hsources : ∀ other ∈ sources, s.header = other.header → s = other)
    (hsorted : pushes.Pairwise fun p q => p.2 ≤ q.2) (hlater : ∀ p ∈ pushes, time ≤ p.2)
    (htexts : ∀ p ∈ pushes, s.IsFrame p.1 ∨ decode p.1 = none)
    (hrepeated : Repeated s pushes time (time + 2 * F.window + 1)) :
    Completes s r pushes (time + 3 * F.window + 1) := by
  cases h with
  | idle =>
      have hshort : Repeated s pushes time (time + F.window) := hrepeated.mono le_rfl (by omega)
      have hstale : ∀ p ∈ pushes, Stale F p.2 (.idle : Receiver Header α) := fun _ _ => True.intro
      exact (completes_stale hstale (by simp) hsorted hlater htexts hshort).mono (by omega)
  | @collecting other a started seen hother hgathering hmissing hstarted =>
      by_cases hpast : started + F.window < time
      · have hshort : Repeated s pushes time (time + F.window) := hrepeated.mono le_rfl (by omega)
        have hstale : ∀ p ∈ pushes, Stale F p.2 (.collecting a) := by
          intro p hp
          have hlate := hlater p hp
          rw [Stale, hgathering.started]
          omega
        exact (completes_stale hstale (by simp) hsorted hlater htexts hshort).mono (by omega)
      · have hshort : Repeated s pushes (started + F.window + 1)
            (started + F.window + 1 + F.window) := hrepeated.mono (by omega) (by omega)
        have hfirst : ∀ p ∈ pushes, started ≤ p.2 := fun p hp => hstarted.trans (hlater p hp)
        exact (completes_passing hgathering (hsources other hother) hsorted hfirst htexts
          hshort).mono (by omega)

omit [DecidableEq Header] [DecidableEq α] in
/-- The pushes before a time and those from it on. -/
theorem exists_split (time : ℕ) (hsorted : pushes.Pairwise fun p q => p.2 ≤ q.2) :
    ∃ earlier later, pushes = earlier ++ later ∧ (∀ p ∈ earlier, p.2 < time) ∧
      ∀ p ∈ later, time ≤ p.2 := by
  induction pushes with
  | nil => exact ⟨[], [], rfl, by simp, by simp⟩
  | cons first rest ih =>
      obtain ⟨hfirst, hrest⟩ := List.pairwise_cons.mp hsorted
      by_cases hearly : first.2 < time
      · obtain ⟨earlier, later, rfl, hearlier, hlater⟩ := ih hrest
        exact ⟨first :: earlier, later, rfl, List.forall_mem_cons.mpr ⟨hearly, hearlier⟩, hlater⟩
      · have hstart : time ≤ first.2 := not_lt.mp hearly
        refine ⟨[], first :: rest, rfl, by simp, List.forall_mem_cons.mpr ⟨hstart, ?_⟩⟩
        intro p hp
        exact hstart.trans (hfirst p hp)

/-- A transfer that is repeated from some time on is completed, whatever was pushed before. -/
theorem offers_recover
    (hsources : ∀ s ∈ sources, ∀ other ∈ sources, s.header = other.header → s = other)
    (hs : s ∈ sources) (hsorted : pushes.Pairwise fun p q => p.2 ≤ q.2)
    (htexts : ∀ p ∈ pushes, Offered sources p.1)
    (hown : ∀ p ∈ pushes, time ≤ p.2 → s.IsFrame p.1 ∨ decode p.1 = none)
    (hrepeated : Repeated s pushes time (time + 2 * F.window + 1)) :
    ∃ before push after, pushes = before ++ push :: after ∧ time ≤ push.2 ∧
      push.2 ≤ time + 3 * F.window + 1 ∧
      ((Transducer.final (Receiver.offered F decode) .idle before).offer F decode push.1 push.2).1 =
        .complete s.message := by
  obtain ⟨earlier, later, rfl, hearlier, hlater⟩ := exists_split time hsorted
  obtain ⟨hsortedEarlier, hsortedLater, -⟩ := List.pairwise_append.mp hsorted
  have htracked : Tracked sources time
      (Transducer.final (Receiver.offered F decode) .idle earlier) := by
    apply final_tracked hsources .idle hsortedEarlier _ (Nat.zero_le time)
    · intro p hp
      exact htexts p (List.mem_append_left later hp)
    · intro p hp
      exact ⟨Nat.zero_le _, (hearlier p hp).le⟩
  have htail : Repeated s later time (time + 2 * F.window + 1) := by
    intro x hx hlimit i hi
    obtain ⟨p, hp, hframe, hafter, hbound⟩ := hrepeated x hx hlimit i hi
    rcases List.mem_append.mp hp with hp | hp
    · exact absurd (hearlier p hp) (not_lt.mpr (hx.trans hafter))
    · exact ⟨p, hp, hframe, hafter, hbound⟩
  have htextsLater : ∀ p ∈ later, s.IsFrame p.1 ∨ decode p.1 = none := by
    intro p hp
    exact hown p (List.mem_append_right earlier hp) (hlater p hp)
  obtain ⟨before, push, after, rfl, hbound, hcomplete⟩ :=
    htracked.completes (hsources s hs) hsortedLater hlater htextsLater htail
  refine ⟨earlier ++ before, push, after, by rw [List.append_assoc], hlater push (by simp),
    hbound, ?_⟩
  rw [Transducer.final_append]
  exact hcomplete

end Completion

end AgePluginPhone.Library.Reassembly
