import AgePluginPhone.Desktop.AdbSharing

/-!
# Sessions that leave each other's rule

The check for an existing rule and the creation are commands of their own. A rule that is created
while the other session has not passed its check, or has nothing left to do with a rule, stays until
its own session asks for its removal.
-/

namespace AgePluginPhone.Desktop.Adb

open Library AgePluginPhone.Core Transport Interaction

section Exclusion

/-- A query that the check for an existing rule comes before. -/
def NeedsCheck : Query → Prop
  | .run args => (∃ desktopSpec, ruleCommand args = .create desktopSpec) ∨
      ruleCommand args = .remove
  | .armCleanupGuard _ => True
  | _ => False

/-- The session creates or removes a rule, or arms a guard, at most after it passes a check, and its
guard never removes one. -/
structure Party.Clear (p : Party) : Prop where
  main : Permitted NeedsCheck (passesCheck · = true) p.main
  guard : ∀ guard ∈ p.guard, Permitted NeedsCheck (fun _ => False) guard

/-- A rule is created only while the other session has not passed its check or can neither create
nor remove a rule without passing another. -/
def Exclusive (w : World) (m : Move) : Prop :=
  ∀ side role event taken desktopSpec, m = .act side role event taken →
    event.1.command = .create desktopSpec →
    (w.parties side.other).checked = false ∨ (w.parties side.other).Clear

/-- The move leaves a rule that the other session has created and uses. -/
def KeepsOthers (w : World) (m : Move) (w' : World) : Prop :=
  ∀ side role event taken desktopSpec, m = .act side role event taken →
    w.rule = some (side.other, desktopSpec) → (w.parties side.other).uses = true → w'.rule = w.rule

end Exclusion

section Checks

theorem command_list (serial : String) : ruleCommand (listArgs serial) = .list := rfl

theorem command_devices : ruleCommand ["devices"] = .other := rfl

/-- A listing with a line for the rule does not pass the check. -/
theorem rejectRules_of_mem {lines : List String} {line transport desktopSpec : String}
    (hline : line ∈ lines)
    (hfields : TextFields.splitWhitespace line = [transport, reverseSpec, desktopSpec]) :
    (rejectRules reverseSpec lines).isOk = false := by
  induction lines with
  | nil => cases hline
  | cons first rest ih =>
      unfold rejectRules
      cases hparse : parseRule first with
      | error failure => rfl
      | ok phoneSpec =>
          rw [ok_bind]
          by_cases hspec : phoneSpec = reverseSpec
          · rw [if_pos hspec]
            rfl
          · rw [if_neg hspec]
            rcases List.mem_cons.mp hline with rfl | hrest
            · exfalso
              unfold parseRule at hparse
              rw [hfields] at hparse
              dsimp only at hparse
              split_ifs at hparse
              exact hspec (Except.ok.inj hparse).symm
            · exact ih hrest

/-- While the rule is there, no listing passes the check. -/
theorem not_passes_of_rule {rule : Rule} {owner : Side} {desktopSpec : String} {event : Event}
    {taken : Bool} (hrule : rule = some (owner, desktopSpec)) (h : Reported rule event taken) :
    passesCheck event = false := by
  obtain ⟨query, answer⟩ := event
  cases query with
  | run args =>
      cases answer with
      | none => rfl
      | some output =>
          by_cases hlist : ruleCommand args = .list
          · simp only [Reported, hlist] at h
            obtain ⟨line, hline, transport, hfields⟩ := h output rfl owner desktopSpec hrule
            simp [passesCheck, rejectRules_of_mem hline hfields]
          · simp [passesCheck, hlist]
  | _ => rfl

end Checks

section Sessions

theorem permitted_selectDevice (requestedSerial : Option String) :
    Permitted NeedsCheck (passesCheck · = true) (selectDevice requestedSerial) := by
  apply Permitted.bind
  · apply permitted_query_bind (by simp [NeedsCheck, command_devices])
    intro answer _
    cases answer <;> exact permitted_pure _
  · intro devices
    exact permitted_pure _

/-- A session does nothing to the rule before it passes its check. -/
theorem permitted_session (plan : Plan) :
    Permitted NeedsCheck (passesCheck · = true) (session plan) := by
  unfold session AdbReverseSession.connect
  rw [bind_assoc]
  apply (permitted_selectDevice plan.requestedSerial).bind
  intro selected
  cases selected with
  | error failure => exact permitted_pure _
  | ok serial =>
      dsimp only
      unfold rejectExistingRule
      rw [bind_assoc, bind_assoc]
      apply permitted_query_bind (by simp [NeedsCheck, command_list])
      intro answer hanswer
      cases answer with
      | none => exact permitted_pure _
      | some output =>
          cases hreject : rejectRules reverseSpec (ruleLines output) with
          | error failure =>
              change Permitted _ _
                ((pure (rejectRules reverseSpec (ruleLines output)) : AdbM _) >>= _)
              rw [hreject]
              exact permitted_pure _
          | ok _ =>
              refine absurd ?_ hanswer
              simp [passesCheck, command_list, hreject, Except.isOk, Except.toBool]

end Sessions

section Invariant

/-- What holds in every state of an exclusive run. -/
structure Settled (w : World) : Prop where
  unchecked : ∀ side, (w.parties side).checked = false → (w.parties side).Clear
  other : ∀ side desktopSpec, w.rule = some (side, desktopSpec) → (w.parties side).uses = true →
    (w.parties side.other).Clear

theorem ruleAfter_eq {rule : Rule} {query : Query} (side : Side) (taken : Bool)
    (h : ¬ NeedsCheck query) : ruleAfter rule side query.command taken = rule := by
  cases query with
  | run args =>
      change ruleAfter rule side (ruleCommand args) taken = rule
      cases hcommand : ruleCommand args with
      | create desktopSpec => exact absurd (Or.inl ⟨desktopSpec, hcommand⟩) h
      | remove => exact absurd (Or.inr hcommand) h
      | list => rfl
      | other => rfl
  | _ => rfl

theorem guardAfter_eq {guard : Option (AdbM PUnit)} {query : Query} (answer : query.Answer)
    (h : ¬ NeedsCheck query) : guardAfter guard ⟨query, answer⟩ = guard := by
  cases query with
  | armCleanupGuard serial => exact absurd trivial h
  | _ => rfl

/-- A session that is clear stays so while it passes no check. -/
theorem Party.Clear.after {p : Party} {query : Query} {next : query.Answer → AdbM PUnit}
    {answer : query.Answer} {checked uses : Bool} (h : p.Clear) (hmain : p.main = .ask query next)
    (hpass : passesCheck ⟨query, answer⟩ = false) :
    Party.Clear ⟨next answer, guardAfter p.guard ⟨query, answer⟩, checked, uses⟩ := by
  have hpermitted := h.main
  rw [hmain] at hpermitted
  constructor
  · exact hpermitted.next (by simp [hpass])
  · dsimp only
    rw [guardAfter_eq answer hpermitted.not_guarded]
    exact h.guard

theorem Party.Clear.after_guard {p : Party} {query : Query} {next : query.Answer → AdbM PUnit}
    (answer : query.Answer) (h : p.Clear) (hguard : p.guard = some (.ask query next)) :
    Party.Clear { p with guard := some (next answer) } := by
  constructor
  · exact h.main
  · intro guard hmem
    obtain rfl := Option.some.inj hmem
    exact (h.guard _ hguard).next not_false

theorem Party.Clear.exit {p : Party} (h : p.Clear) :
    Party.Clear { p with main := pure (), uses := false } :=
  ⟨permitted_pure _, h.guard⟩

theorem Side.eq_or_eq_other (side owner : Side) : owner = side ∨ owner = side.other := by
  cases side <;> cases owner <;> decide

theorem Side.other_ne (side : Side) : side.other ≠ side := by
  cases side <;> decide

@[simp]
theorem Side.other_other (side : Side) : side.other.other = side := by
  cases side <;> rfl

namespace World

variable (w : World) (side : Side) (p : Party)

@[simp]
theorem setParty_same : (w.setParty side p).parties side = p := Function.update_self ..

@[simp]
theorem setParty_other : (w.setParty side p).parties side.other = w.parties side.other :=
  Function.update_of_ne side.other_ne ..

end World

theorem settled_start (plans : Side → Plan) : Settled (World.start plans) where
  unchecked side _ := ⟨permitted_session _, by simp [World.start]⟩
  other side desktopSpec hrule := by cases hrule

/-- A rule of the other session is there before a command if it is there after it. -/
theorem rule_of_ruleAfter {rule : Rule} {side : Side} {command : RuleCommand} {taken : Bool}
    {desktopSpec : String}
    (h : ruleAfter rule side command taken = some (side.other, desktopSpec)) :
    rule = some (side.other, desktopSpec) := by
  cases command with
  | create created =>
      cases taken with
      | false => exact h
      | true => exact absurd (congrArg Prod.fst (Option.some.inj h)).symm side.other_ne
  | remove =>
      cases taken with
      | false => exact h
      | true => cases h
  | list => exact h
  | other => exact h

variable {w w' : World} {m : Move} {side : Side}

/-- The invariant after a change of one session and the rule. -/
theorem Settled.change {p : Party} {rule : Rule} (h : Settled w)
    (hunchecked : p.checked = false → p.Clear)
    (hown : ∀ desktopSpec, rule = some (side, desktopSpec) → p.uses = true →
      (w.parties side.other).Clear)
    (hother : ∀ desktopSpec, rule = some (side.other, desktopSpec) →
      (w.parties side.other).uses = true → p.Clear) : Settled { w.setParty side p with rule := rule } := by
  constructor
  · intro owner
    rcases side.eq_or_eq_other owner with rfl | rfl
    · simpa using hunchecked
    · simpa using h.unchecked side.other
  · intro owner desktopSpec hrule
    rcases side.eq_or_eq_other owner with rfl | rfl
    · simpa using hown desktopSpec hrule
    · simpa using hother desktopSpec hrule

/-- A session whose rule is there keeps the other clear, whatever that one asks. -/
theorem Settled.clear_of_rule (h : Settled w) {desktopSpec : String}
    (hrule : w.rule = some (side.other, desktopSpec)) (huses : (w.parties side.other).uses = true) :
    (w.parties side).Clear := by
  have hclear := h.other side.other desktopSpec hrule huses
  rwa [Side.other_other] at hclear

theorem Settled.clear_of_create (h : Settled w) {role : Role} {event : Event} {taken : Bool}
    {desktopSpec : String} (hallowed : Exclusive w (.act side role event taken))
    (hcommand : event.1.command = .create desktopSpec) : (w.parties side.other).Clear :=
  (hallowed side role event taken desktopSpec rfl hcommand).elim (h.unchecked side.other) id

theorem Settled.main {query : Query} {next : query.Answer → AdbM PUnit} {answer : query.Answer}
    {taken : Bool} (h : Settled w) (hallowed : Exclusive w (.act side .main ⟨query, answer⟩ taken))
    (hmain : (w.parties side).main = .ask query next)
    (hreported : Reported w.rule ⟨query, answer⟩ taken) :
    Settled (w.afterMain side ⟨query, answer⟩ taken (next answer)) := by
  apply h.change
  · intro hchecked
    have hparts := Bool.or_eq_false_iff.mp hchecked
    exact (h.unchecked side hparts.1).after hmain hparts.2
  · intro desktopSpec hrule huses
    dsimp only at hrule huses
    cases hcommand : query.command with
    | create created => exact h.clear_of_create hallowed hcommand
    | remove =>
        rw [hcommand] at huses
        cases huses
    | list =>
        rw [hcommand] at hrule huses
        exact h.other side desktopSpec hrule huses
    | other =>
        rw [hcommand] at hrule huses
        exact h.other side desktopSpec hrule huses
  · intro desktopSpec hrule huses
    have hbefore := rule_of_ruleAfter hrule
    exact (h.clear_of_rule hbefore huses).after hmain (not_passes_of_rule hbefore hreported)

theorem Settled.guard {query : Query} {next : query.Answer → AdbM PUnit} {answer : query.Answer}
    {taken : Bool} (h : Settled w) (hallowed : Exclusive w (.act side .guard ⟨query, answer⟩ taken))
    (hguard : (w.parties side).guard = some (.ask query next)) :
    Settled (w.afterGuard side ⟨query, answer⟩ taken (next answer)) := by
  apply h.change
  · intro hchecked
    exact (h.unchecked side hchecked).after_guard answer hguard
  · intro desktopSpec hrule huses
    dsimp only at hrule huses
    cases hcommand : query.command with
    | create created => exact h.clear_of_create hallowed hcommand
    | remove =>
        rw [hcommand] at hrule
        cases taken with
        | false => exact h.other side desktopSpec hrule huses
        | true => cases hrule
    | list =>
        rw [hcommand] at hrule
        exact h.other side desktopSpec hrule huses
    | other =>
        rw [hcommand] at hrule
        exact h.other side desktopSpec hrule huses
  · intro desktopSpec hrule huses
    exact (h.clear_of_rule (rule_of_ruleAfter hrule) huses).after_guard answer hguard

theorem Settled.exit (h : Settled w) : Settled (w.afterExit side) := by
  change Settled
    { w.setParty side { w.parties side with main := pure (), uses := false } with rule := w.rule }
  apply h.change
  · intro hchecked
    exact (h.unchecked side hchecked).exit
  · intro desktopSpec hrule huses
    cases huses
  · intro desktopSpec hrule huses
    exact (h.clear_of_rule hrule huses).exit

/-- An exclusive step keeps the invariant. -/
theorem Settled.step (h : Settled w) (hallowed : Exclusive w m) (hstep : Step w m w') :
    Settled w' := by
  cases hstep with
  | main answer taken hmain hreported => exact h.main hallowed hmain hreported
  | guard answer taken hguard hreported => exact h.guard hallowed hguard
  | exit side => exact h.exit

theorem settled_run {plans : Side → Plan} (h : Run Exclusive (World.start plans) w) :
    Settled w := by
  induction h with
  | start => exact settled_start plans
  | step _ hallowed hstep ih => exact ih.step hallowed hstep

end Invariant

section Keeping

variable {w w' : World} {m : Move}

/-- A clear session leaves the rule. -/
theorem rule_eq_of_clear {side : Side} {role : Role} {event : Event} {taken : Bool}
    (hclear : (w.parties side).Clear) (hstep : Step w (.act side role event taken) w') :
    w'.rule = w.rule := by
  cases hstep with
  | main answer _ hmain _ =>
      have hpermitted := hclear.main
      rw [hmain] at hpermitted
      exact ruleAfter_eq side taken hpermitted.not_guarded
  | guard answer _ hguard _ => exact ruleAfter_eq side taken (hclear.guard _ hguard).not_guarded

/-- In a run whose moves are all exclusive, no session replaces or removes a rule that the other has
created and uses. -/
theorem exclusive_keeps_rules {plans : Side → Plan} (h : Run Exclusive (World.start plans) w)
    (hstep : Step w m w') : KeepsOthers w m w' := by
  intro side role event taken desktopSpec hm hrule huses
  subst hm
  exact rule_eq_of_clear ((settled_run h).clear_of_rule hrule huses) hstep

end Keeping

section Sample

/-- A phone whose commands succeed, for sessions that listen on different ports. -/
def pairedHost (side : Side) : (query : Query) → query.Answer
  | .run args => some (if args = ["devices"] then "List of devices attached\nphone device" else "")
  | .bindListener => some (match side with | .first => 50000 | .second => 50001)
  | .armCleanupGuard _ => some true
  | .deadline => (0 : ℕ)
  | .accept => .peer (.v4 (Bytes.replicate 4 127))
  | .configure _ => some ()
  | .drawSessionId => Bytes.replicate 16 0
  | .stream _ _ => ⟨true, true, []⟩
  | .writeDisarm => some ()
  | .tryWait => some true
  | .readSignal => .closed

/-- What a session asks next, with the answer of its host. -/
def World.moveOf (w : World) (side : Side) : Move :=
  match (w.parties side).main with
  | .done _ => .exit side
  | .ask query _ => .act side .main ⟨query, pairedHost side query⟩ true

def World.play (w : World) (side : Side) : World :=
  match (w.parties side).main with
  | .done _ => w.afterExit side
  | .ask query next =>
      w.afterMain side ⟨query, pairedHost side query⟩ true (next (pairedHost side query))

/-- No rule is there, or the session does not ask for one. -/
def World.unlisted (w : World) (side : Side) : Bool :=
  match (w.parties side).main with
  | .done _ => true
  | .ask query _ => w.rule.isNone || query.command ≠ .list

/-- The session creates no rule, or the other has not passed its check. -/
def World.unopposed (w : World) (side : Side) : Bool :=
  match (w.parties side).main with
  | .done _ => true
  | .ask query _ =>
      match query.command with
      | .create _ => !(w.parties side.other).checked
      | _ => true

theorem reported_true {rule : Rule} {query : Query} {answer : query.Answer}
    (h : (rule.isNone || query.command ≠ .list) = true) : Reported rule ⟨query, answer⟩ true := by
  cases query with
  | run args =>
      unfold Query.command at h
      dsimp only at h
      cases hcommand : ruleCommand args with
      | list =>
          cases rule with
          | none => simp [Reported, hcommand]
          | some rule => simp [hcommand] at h
      | _ => simp [Reported, hcommand]
  | _ => trivial

theorem step_play (w : World) (side : Side) (h : w.unlisted side = true) :
    Step w (w.moveOf side) (w.play side) := by
  unfold World.unlisted at h
  unfold World.moveOf World.play
  cases hmain : (w.parties side).main with
  | done result => exact .exit side
  | ask query next =>
      rw [hmain] at h
      exact .main _ true hmain (reported_true h)

theorem exclusive_moveOf {w : World} {side : Side} (h : w.unopposed side = true) :
    Exclusive w (w.moveOf side) := by
  unfold World.unopposed at h
  unfold World.moveOf
  cases hmain : (w.parties side).main with
  | done result =>
      intro side role event taken desktopSpec hmove
      cases hmove
  | ask query next =>
      rw [hmain] at h
      intro mover role event taken desktopSpec hmove hcommand
      cases hmove
      dsimp only at h hcommand
      rw [hcommand] at h
      exact Or.inl (by simpa using h)

/-- The host answers one query after another, in this order of the sessions. -/
def World.playAll (w : World) (sides : List Side) : World := sides.foldl World.play w

def World.scheduled (check : World → Side → Bool) (w : World) : List Side → Bool
  | [] => true
  | side :: sides => check w side && (w.play side).scheduled check sides

theorem run_playAll {Allowed : World → Move → Prop} (check : World → Side → Bool) {start w : World}
    {sides : List Side}
    (hcheck : ∀ w side, check w side = true → w.unlisted side = true ∧ Allowed w (w.moveOf side))
    (h : Run Allowed start w) (hsides : w.scheduled check sides = true) :
    Run Allowed start (w.playAll sides) := by
  induction sides generalizing w with
  | nil => exact h
  | cons side sides ih =>
      have hparts := Bool.and_eq_true_iff.mp hsides
      have hfirst := hcheck w side hparts.1
      exact ih (h.step hfirst.2 (step_play w side hfirst.1)) hparts.2

theorem rule_of_keeps {w : World} {side : Side} {desktopSpec : String}
    (h : KeepsOthers w (w.moveOf side) (w.play side))
    (hrule : w.rule = some (side.other, desktopSpec))
    (huses : (w.parties side.other).uses = true) : (w.play side).rule = w.rule := by
  unfold World.moveOf at h
  unfold World.play at h ⊢
  cases hmain : (w.parties side).main with
  | done result => rfl
  | ask query next =>
      rw [hmain] at h
      exact h side .main _ true desktopSpec rfl hrule huses

def samplePlans : Side → Plan := fun _ => ⟨none, .pairing, .default, [.cancel]⟩

/-- The first session creates its rule, then the second lists the devices. -/
theorem exclusive_keeps_rules_sample : ∃ w w' m side desktopSpec,
    Run Exclusive (World.start samplePlans) w ∧ Step w m w' ∧ w.rule = some (side, desktopSpec) ∧
      (w.parties side).uses = true ∧ KeepsOthers w m w' := by
  have hrun : Run Exclusive (World.start samplePlans)
      ((World.start samplePlans).playAll (List.replicate 5 .first)) := by
    apply run_playAll (fun w side => w.unlisted side && w.unopposed side)
    · intro w side h
      have hparts := Bool.and_eq_true_iff.mp h
      exact ⟨hparts.1, exclusive_moveOf hparts.2⟩
    · exact .start
    · decide +kernel
  have hstep := step_play ((World.start samplePlans).playAll (List.replicate 5 .first)) .second
    (by decide +kernel)
  exact ⟨_, _, _, .first, "tcp:50000", hrun, hstep, by decide +kernel, by decide +kernel,
    exclusive_keeps_rules hrun hstep⟩

/-- Both sessions pass their check, then the first creates its rule and the second replaces it. -/
theorem created_rule_replaced : ¬ ∀ plans w w' m, Run (fun _ _ => True) (World.start plans) w →
    Step w m w' → KeepsOthers w m w' := by
  intro h
  let w := (World.start samplePlans).playAll
    [.first, .first, .second, .second, .first, .first, .first, .second, .second]
  have hrun : Run (fun _ _ => True) (World.start samplePlans) w := by
    apply run_playAll World.unlisted
    · intro w side hside
      exact ⟨hside, trivial⟩
    · exact .start
    · decide +kernel
  have hkeeps := h _ _ _ _ hrun (step_play w .second (by decide +kernel))
  have hrule : w.rule = some (.first, "tcp:50000") := by decide +kernel
  have hafter : (w.play .second).rule = some (.second, "tcp:50001") := by decide +kernel
  have hsame := rule_of_keeps hkeeps hrule (by decide +kernel)
  rw [hrule, hafter] at hsame
  simp at hsame

end Sample

end AgePluginPhone.Desktop.Adb
