import Mathlib.Data.List.Basic
import NodeShader.Session

/-!
# Sessions over time

A session is compared with its history: the actions that were taken, in any order and at any times,
and what each of them returned. The history alone says which submission is the latest, whether it
still waits, and which submissions were replaced before they were compiled. One action does one of
four things (`Session.step_transition`), each of which keeps the session in step with its history
(`Session.Mirrors.step`), and so does every run (`Session.mirrors_after`).

* `latest_submission_wins`: what is compiled, and when.
* `submissions_accounted`: every submission is compiled once, replaced once, or waits.
-/

namespace NodeShader

/-- What can be done with a session. A compilation takes some time. -/
inductive Action where
  | submit (graph : Graph) (time : Nat)
  | poll (time duration : Nat)
  | flush (duration : Nat)
  | setWindow (window : Nat)

namespace Action

def submission : Action → Option (Graph × Nat)
  | submit graph time => some (graph, time)
  | _ => none

def newWindow : Action → Option Nat
  | setWindow window => some window
  | _ => none

end Action

/-- An action and what it returned. -/
structure Event where
  action : Action
  outcome : Option SessionOutcome

/-- What has happened, the newest first. -/
abbrev History := List Event

namespace History

/-- The graphs that were submitted and when, the newest first. -/
def submissions (past : History) : List (Graph × Nat) :=
  past.filterMap fun e => e.action.submission

def outcomes (past : History) : List SessionOutcome := past.filterMap Event.outcome

/-- The window in force. -/
def window (initial : Nat) (past : History) : Nat :=
  (past.findSome? fun e => e.action.newWindow).getD initial

/-- Whether nothing has been compiled since the latest submission. -/
def awaits : History → Bool
  | [] => false
  | e :: earlier => e.action.submission.isSome || (e.outcome.isNone && awaits earlier)

/-- The numbers of the submissions that another one replaced. -/
def replaced : History → List Nat
  | [] => []
  | e :: earlier =>
    if e.action.submission.isSome && awaits earlier then
      (submissions earlier).length :: replaced earlier
    else replaced earlier

/-- The number of the submission that waits. -/
def awaited (past : History) : List Nat := if past.awaits then [past.submissions.length] else []

theorem exists_latest {past : History} (h : past.awaits = true) :
    ∃ latest, past.submissions.head? = some latest := by
  induction past with
  | nil => cases h
  | cons e earlier ih =>
    cases hs : e.action.submission with
    | some latest => exact ⟨latest, by simp [submissions, hs]⟩
    | none =>
      simp only [awaits, hs, Option.isSome_none, Bool.false_or, Bool.and_eq_true] at h
      simpa [submissions, hs] using ih h.2

/-! An event that submits nothing and sets no window adds at most an outcome. -/

section

variable {e : Event} {past : History}

theorem submissions_quiet (h : e.action.submission = none) :
    submissions (e :: past) = past.submissions := List.filterMap_cons_none h

theorem window_quiet {initial : Nat} (h : e.action.newWindow = none) :
    window initial (e :: past) = past.window initial := by
  simp [window, h]

theorem replaced_quiet (h : e.action.submission = none) : replaced (e :: past) = past.replaced := by
  simp [replaced, h]

theorem awaits_quiet (h : e.action.submission = none) :
    awaits (e :: past) = (e.outcome.isNone && past.awaits) := by
  simp [awaits, h]

end

end History

namespace Session

/-- Takes an action. The texts of shaders are handed to `check`. -/
def step (s : Session) (check : String → Glsl.SourceReport) :
    Action → Option SessionOutcome × Session
  | .submit graph time => (none, s.submit graph time)
  | .poll time duration => s.poll time duration check
  | .flush duration => s.flush duration check
  | .setWindow window => (none, s.setWindow window)

/-- A session after some actions, the newest first. -/
def after (s : Session) (check : String → Glsl.SourceReport) : List Action → Session
  | [] => s
  | a :: earlier => ((s.after check earlier).step check a).2

def history (s : Session) (check : String → Glsl.SourceReport) : List Action → History
  | [] => []
  | a :: earlier => ⟨a, ((s.after check earlier).step check a).1⟩ :: s.history check earlier

/-- What one action can do. -/
inductive Transition (s : Session) (check : String → Glsl.SourceReport) :
    Event → Session → Prop where
  | submit (graph : Graph) (time : Nat) :
    Transition s check ⟨.submit graph time, none⟩ (s.submit graph time)
  | setWindow (window : Nat) : Transition s check ⟨.setWindow window, none⟩ (s.setWindow window)
  | compile (a : Action) (duration : Nat) (p : Submission) (hsubmission : a.submission = none)
    (hwindow : a.newWindow = none) (hpending : s.pending = some p) :
    Transition s check ⟨a, some ⟨p.generation, s.compiler.respond p.request check⟩⟩
      { s with pending := none, compiled := s.compiled + 1, lastDuration := some duration }
  | idle (a : Action) (hsubmission : a.submission = none) (hwindow : a.newWindow = none) :
    Transition s check ⟨a, none⟩ s

variable {s t : Session} {e : Event} {check : String → Glsl.SourceReport}

theorem flush_transition (s : Session) (a : Action) (duration : Nat)
    (hsubmission : a.submission = none) (hwindow : a.newWindow = none) :
    s.Transition check ⟨a, (s.flush duration check).1⟩ (s.flush duration check).2 := by
  unfold flush
  split
  next => exact .idle a hsubmission hwindow
  next p hp => exact .compile a duration p hsubmission hwindow hp

theorem step_transition (s : Session) (check : String → Glsl.SourceReport) (a : Action) :
    s.Transition check ⟨a, (s.step check a).1⟩ (s.step check a).2 := by
  cases a with
  | submit graph time => exact .submit graph time
  | setWindow window => exact .setWindow window
  | flush duration => exact flush_transition s _ duration rfl rfl
  | poll time duration =>
    rw [step, poll]
    split
    next => exact flush_transition s _ duration rfl rfl
    next => exact .idle _ rfl rfl

/-- A poll or a flush that returns nothing does nothing. -/
theorem Transition.eq_self (ht : s.Transition check e t) (hsubmission : e.action.submission = none)
    (hwindow : e.action.newWindow = none) (hnone : e.outcome = none) : t = s := by
  cases ht with
  | submit graph time => cases hsubmission
  | setWindow w => cases hwindow
  | compile a duration p => cases hnone
  | idle a => rfl

/-- A session stands as its history says. -/
structure Mirrors (c : Compiler) (window : Nat) (past : History) (s : Session) : Prop where
  compiler : s.compiler = c
  window : s.window = past.window window
  generation : s.generation = past.submissions.length
  submitted : s.submitted = past.submissions.length
  pending : s.pending =
    if past.awaits then past.submissions.head?.map fun latest =>
      ⟨⟨latest.1, c.options.language, c.options.optimize⟩, past.submissions.length, latest.2⟩
    else none
  compiled : s.compiled = past.outcomes.length
  superseded : s.superseded = past.replaced.length
  timed : s.lastDuration.isSome = decide (0 < s.compiled)

section

variable {c : Compiler} {window : Nat} {past : History}

theorem mirrors_opened (c : Compiler) (window : Nat) : Mirrors c window [] (opened c window) :=
  ⟨rfl, rfl, rfl, rfl, rfl, rfl, rfl, rfl⟩

theorem Mirrors.isSome_pending (h : Mirrors c window past s) :
    s.pending.isSome = past.awaits := by
  rw [h.pending]
  cases hawaits : past.awaits with
  | false => rfl
  | true =>
    obtain ⟨latest, hlatest⟩ := History.exists_latest hawaits
    simp [hlatest]

/-- The submission that waits is the latest one. -/
theorem Mirrors.of_pending (h : Mirrors c window past s) {p : Submission}
    (hp : s.pending = some p) :
    past.awaits = true ∧ ∃ latest, past.submissions.head? = some latest ∧
      p = ⟨⟨latest.1, c.options.language, c.options.optimize⟩, past.submissions.length,
        latest.2⟩ := by
  have hawaits : past.awaits = true := by rw [← h.isSome_pending, hp, Option.isSome_some]
  obtain ⟨latest, hlatest⟩ := History.exists_latest hawaits
  have heq := h.pending
  rw [hp, if_pos hawaits, hlatest, Option.map_some, Option.some.injEq] at heq
  exact ⟨hawaits, latest, hlatest, heq⟩

theorem Mirrors.awaited (h : Mirrors c window past s) :
    s.pending.toList.map Submission.generation = past.awaited := by
  rw [History.awaited, ← h.isSome_pending]
  cases hp : s.pending with
  | none => rfl
  | some p =>
    obtain ⟨-, latest, -, rfl⟩ := h.of_pending hp
    rfl

theorem Mirrors.step (h : Mirrors c window past s) (ht : s.Transition check e t) :
    Mirrors c window (e :: past) t := by
  cases ht with
  | submit graph time =>
    refine ⟨h.compiler, h.window, ?_, ?_, ?_, h.compiled, ?_, h.timed⟩
    · exact congrArg (· + 1) h.generation
    · exact congrArg (· + 1) h.submitted
    · simp [Session.submit, History.awaits, History.submissions, Action.submission, h.compiler,
        h.generation]
    · simp only [Session.submit, History.replaced, h.isSome_pending, Action.submission,
        Option.isSome_some, Bool.true_and, h.superseded]
      split <;> rfl
  | setWindow w =>
    exact ⟨h.compiler, rfl, h.generation, h.submitted, h.pending, h.compiled, h.superseded, h.timed⟩
  | idle a hsubmission hwindow =>
    refine ⟨h.compiler, ?_, ?_, ?_, ?_, ?_, ?_, h.timed⟩
    · rw [History.window_quiet hwindow, h.window]
    · rw [History.submissions_quiet hsubmission, h.generation]
    · rw [History.submissions_quiet hsubmission, h.submitted]
    · rw [History.submissions_quiet hsubmission, History.awaits_quiet hsubmission, h.pending]
      rfl
    · exact h.compiled
    · rw [History.replaced_quiet hsubmission, h.superseded]
  | compile a duration p hsubmission hwindow hpending =>
    refine ⟨h.compiler, ?_, ?_, ?_, ?_, ?_, ?_, ?_⟩
    · rw [History.window_quiet hwindow, h.window]
    · rw [History.submissions_quiet hsubmission, h.generation]
    · rw [History.submissions_quiet hsubmission, h.submitted]
    · rw [History.awaits_quiet hsubmission]
      rfl
    · exact congrArg (· + 1) h.compiled
    · rw [History.replaced_quiet hsubmission, h.superseded]
    · simp

/-- An outcome is that of the latest submission. -/
theorem Mirrors.outcome (h : Mirrors c window past s) (ht : s.Transition check e t)
    {outcome : SessionOutcome} (ho : e.outcome = some outcome) :
    past.awaits = true ∧ ∃ latest, past.submissions.head? = some latest ∧
      outcome = ⟨past.submissions.length, c.compileAndValidate latest.1 check⟩ := by
  cases ht with
  | submit graph time => cases ho
  | setWindow w => cases ho
  | idle a hsubmission hwindow => cases ho
  | compile a duration p hsubmission hwindow hpending =>
    cases ho
    obtain ⟨hawaits, latest, hlatest, rfl⟩ := h.of_pending hpending
    -- the request carries the options of the compiler itself
    exact ⟨hawaits, latest, hlatest, by rw [h.compiler]; rfl⟩

theorem Mirrors.isDue_iff (h : Mirrors c window past s) (time : Nat) :
    s.isDue time = true ↔ past.awaits = true ∧
      ∃ latest ∈ past.submissions.head?, past.window window ≤ time - latest.2 := by
  rw [isDue, h.pending, h.window]
  cases past.awaits with
  | false => simp
  | true => cases past.submissions.head? <;> simp

end

/-- Every run keeps a session in step with its history. -/
theorem mirrors_after (c : Compiler) (window : Nat) (check : String → Glsl.SourceReport)
    (actions : List Action) :
    Mirrors c window ((opened c window).history check actions)
      ((opened c window).after check actions) := by
  induction actions with
  | nil => exact mirrors_opened c window
  | cons a earlier ih => exact ih.step (step_transition _ check a)

theorem isSome_flush (s : Session) (duration : Nat) :
    (s.flush duration check).1.isSome = s.pending.isSome := by
  unfold flush
  cases s.pending <;> rfl

theorem isSome_poll (s : Session) (time duration : Nat) :
    (s.poll time duration check).1.isSome = s.isDue time := by
  rw [poll]
  split
  next hdue =>
    obtain ⟨p, hp, -⟩ := Option.any_eq_true _ _ |>.mp hdue
    rw [isSome_flush, hdue, hp, Option.isSome_some]
  next hdue => exact (Bool.eq_false_iff.mpr hdue).symm

end Session

/-! ## Where the submissions went -/

namespace History

/-- Each number so far is that of one submission that was compiled, was replaced, or waits, and
what was compiled later was submitted later. -/
structure Orderly (past : History) : Prop where
  accounted : (past.outcomes.map SessionOutcome.generation ++ past.replaced ++ past.awaited).Perm
    (List.range' 1 past.submissions.length)
  increasing : past.outcomes.Pairwise fun later earlier => earlier.generation < later.generation

variable {past : History} {c : Compiler} {window : Nat} {s t : Session} {e : Event}
  {check : String → Glsl.SourceReport}

/-- While a submission waits, everything that was compiled is older. -/
theorem Orderly.generation_lt (h : Orderly past) (hawaits : past.awaits = true)
    {outcome : SessionOutcome} (ho : outcome ∈ past.outcomes) :
    outcome.generation < past.submissions.length := by
  have hmem : outcome.generation ∈ past.outcomes.map SessionOutcome.generation ++ past.replaced :=
    List.mem_append_left _ (List.mem_map_of_mem ho)
  have hrange := h.accounted.mem_iff.mp (List.mem_append_left _ hmem)
  have hnodup := h.accounted.nodup_iff.mpr List.nodup_range'
  have hne : outcome.generation ≠ past.submissions.length := by
    refine (List.nodup_append.mp hnodup).2.2 _ hmem _ ?_
    rw [awaited, if_pos hawaits]
    exact List.mem_singleton_self _
  rw [List.mem_range'_1] at hrange
  omega

theorem Orderly.submit (h : Orderly past) (graph : Graph) (time : Nat) :
    Orderly (⟨.submit graph time, none⟩ :: past) := by
  refine ⟨?_, h.increasing⟩
  have hreplaced : (replaced (⟨.submit graph time, none⟩ :: past)).Perm
      (past.replaced ++ past.awaited) := by
    rw [replaced, awaited]
    cases past.awaits with
    | false => exact .of_eq (List.append_nil _).symm
    | true => exact (List.perm_append_singleton _ _).symm
  calc
    _ = past.outcomes.map SessionOutcome.generation ++
          replaced (⟨.submit graph time, none⟩ :: past) ++ [past.submissions.length + 1] := rfl
    List.Perm _ (past.outcomes.map SessionOutcome.generation ++
          (past.replaced ++ past.awaited) ++ [past.submissions.length + 1]) :=
      (hreplaced.append_left _).append_right _
    List.Perm _ (List.range' 1 past.submissions.length ++ [past.submissions.length + 1]) := by
      rw [← List.append_assoc]
      exact h.accounted.append_right _
    _ = List.range' 1 (past.submissions.length + 1) := by
      rw [List.range'_1_concat, Nat.add_comm 1]

theorem Orderly.compile (h : Orderly past) {a : Action} {outcome : SessionOutcome}
    (hsubmission : a.submission = none) (hawaits : past.awaits = true)
    (hgeneration : outcome.generation = past.submissions.length) :
    Orderly (⟨a, some outcome⟩ :: past) := by
  refine ⟨?_, List.pairwise_cons.mpr ⟨fun earlier hearlier => ?_, h.increasing⟩⟩
  · rw [submissions_quiet hsubmission, replaced_quiet hsubmission]
    have hbefore : past.awaited = [outcome.generation] := by
      rw [awaited, if_pos hawaits, hgeneration]
    have hafter : awaited (⟨a, some outcome⟩ :: past) = [] := by
      rw [awaited, awaits_quiet hsubmission]
      rfl
    have haccounted := h.accounted
    rw [hbefore] at haccounted
    rw [hafter, List.append_nil]
    exact (List.perm_append_singleton _ _).symm.trans haccounted
  · rw [hgeneration]
    exact h.generation_lt hawaits hearlier

theorem Orderly.idle (h : Orderly past) {a : Action} (hsubmission : a.submission = none) :
    Orderly (⟨a, none⟩ :: past) := by
  refine ⟨?_, h.increasing⟩
  have hawaited : awaited (⟨a, none⟩ :: past) = past.awaited := by
    rw [awaited, awaited, awaits_quiet hsubmission, submissions_quiet hsubmission]
    rfl
  rw [submissions_quiet hsubmission, replaced_quiet hsubmission, hawaited]
  exact h.accounted

theorem Orderly.step (h : Orderly past) (hm : s.Mirrors c window past)
    (ht : s.Transition check e t) : Orderly (e :: past) := by
  have houtcome {outcome : SessionOutcome} (ho : e.outcome = some outcome) := hm.outcome ht ho
  cases ht with
  | submit graph time => exact h.submit graph time
  | setWindow w => exact h.idle rfl
  | idle a hsubmission hwindow => exact h.idle hsubmission
  | compile a duration p hsubmission hwindow hpending =>
    obtain ⟨hawaits, latest, -, heq⟩ := houtcome rfl
    exact h.compile hsubmission hawaits (congrArg SessionOutcome.generation heq)

end History

theorem Session.orderly_history (c : Compiler) (window : Nat) (check : String → Glsl.SourceReport)
    (actions : List Action) : ((opened c window).history check actions).Orderly := by
  induction actions with
  | nil => exact ⟨.nil, .nil⟩
  | cons a earlier ih =>
    exact ih.step (mirrors_after c window check earlier) (step_transition _ check a)

/-- A session is a queue of one place in which the latest submission wins, whatever checks the
texts. After any actions, a poll returns something exactly if a submission waits and the window in
force has passed since it was made, and a flush exactly if a submission waits. What is returned has
the number of the latest submission, and is what the compiler makes of its graph. Numbers that are
returned increase, and where nothing is returned nothing changes. -/
theorem latest_submission_wins (c : Compiler) (window : Nat) (check : String → Glsl.SourceReport)
    (actions : List Action) :
    let s := (Session.opened c window).after check actions
    let past := (Session.opened c window).history check actions
    s.pending.isSome = past.awaits ∧
    (∀ time duration, (s.poll time duration check).1.isSome = true ↔ past.awaits = true ∧
      ∃ latest ∈ past.submissions.head?, past.window window ≤ time - latest.2) ∧
    (∀ duration, (s.flush duration check).1.isSome = true ↔ past.awaits = true) ∧
    (∀ action, ∀ outcome ∈ (s.step check action).1, ∃ latest ∈ past.submissions.head?,
      outcome = ⟨past.submissions.length, c.compileAndValidate latest.1 check⟩) ∧
    past.outcomes.Pairwise (fun later earlier => earlier.generation < later.generation) ∧
    (∀ time duration, (s.poll time duration check).1 = none →
      (s.poll time duration check).2 = s) ∧
    (∀ duration, (s.flush duration check).1 = none → (s.flush duration check).2 = s) ∧
    ∀ other, s.setWindow other = { s with window := other } := by
  intro s past
  have hm : s.Mirrors c window past := Session.mirrors_after c window check actions
  refine ⟨hm.isSome_pending, fun time duration => ?_, fun duration => ?_,
    fun action outcome ho => ?_, (Session.orderly_history c window check actions).increasing,
    fun time duration hnone => ?_, fun duration hnone => ?_, fun _ => rfl⟩
  · rw [Session.isSome_poll, hm.isDue_iff]
  · rw [Session.isSome_flush, hm.isSome_pending]
  · exact (hm.outcome (s.step_transition check action) ho).2
  · exact (s.step_transition check (.poll time duration)).eq_self rfl rfl hnone
  · exact (s.step_transition check (.flush duration)).eq_self rfl rfl hnone

/-- A color that is shown. -/
def colorGraph (id : String) : Graph :=
  { nodes := [⟨id, "color_picker", ∅⟩, ⟨"out", "fragment_output", ∅⟩]
    edges := [⟨"1", id, none, "out", none⟩] }

/-- Two edits with a shorter window for the second, and a poll by a clock that was set back. -/
def twoEdits : List Action :=
  [.poll 200 0, .submit (colorGraph "second") 300, .setWindow 400, .submit (colorGraph "first") 0]

theorem second_edit_wins :
    let s := (Session.opened {} 500).after (Glsl.checkSource .grammar) twoEdits
    (s.poll 699).1 = none ∧ (s.poll 699).2 = s ∧
      (s.poll 700).1 = some ⟨2, Compiler.compileAndValidate {} (colorGraph "second")⟩ := by
  intro s
  obtain ⟨-, hpoll, -, houtcome, -, hquiet, -⟩ :=
    latest_submission_wins {} 500 (Glsl.checkSource .grammar) twoEdits
  refine ⟨rfl, hquiet 699 0 rfl, ?_⟩
  have hdue : (s.poll 700).1.isSome = true :=
    (hpoll 700 0).mpr ⟨rfl, (colorGraph "second", 300), rfl, by decide⟩
  obtain ⟨outcome, ho⟩ := Option.isSome_iff_exists.mp hdue
  obtain ⟨latest, hlatest, heq⟩ := houtcome (.poll 700 0) outcome ho
  cases hlatest
  exact ho.trans (congrArg some heq)

/-- Nothing that is submitted is lost or compiled twice. After any actions, the numbers up to that
of the latest submission are those that were compiled, those that were replaced, and the one that
waits, each of them once, and the counters say how many of each there are. -/
theorem submissions_accounted (c : Compiler) (window : Nat) (check : String → Glsl.SourceReport)
    (actions : List Action) :
    let s := (Session.opened c window).after check actions
    let past := (Session.opened c window).history check actions
    s.generation = s.submitted ∧
    s.submitted = s.compiled + s.superseded + (if s.pending.isSome then 1 else 0) ∧
    (∀ p ∈ s.pending, p.generation = s.generation) ∧
    (s.lastDuration.isSome = true ↔ 0 < s.compiled) ∧
    s.submitted = past.submissions.length ∧ s.compiled = past.outcomes.length ∧
    s.superseded = past.replaced.length ∧
    (past.outcomes.map SessionOutcome.generation ++ past.replaced ++
      s.pending.toList.map Submission.generation).Perm (List.range' 1 s.submitted) := by
  intro s past
  have hm : s.Mirrors c window past := Session.mirrors_after c window check actions
  have haccounted := (Session.orderly_history c window check actions).accounted
  rw [← hm.awaited, ← hm.submitted] at haccounted
  refine ⟨hm.generation.trans hm.submitted.symm, ?_, fun p hp => ?_, ?_, hm.submitted, hm.compiled,
    hm.superseded, haccounted⟩
  · have hlength := haccounted.length_eq
    rw [List.length_append, List.length_append, List.length_map, List.length_map,
      List.length_range', Option.length_toList, ← hm.compiled, ← hm.superseded] at hlength
    exact hlength.symm
  · obtain ⟨-, latest, -, rfl⟩ := hm.of_pending hp
    exact hm.generation.symm
  · rw [hm.timed, decide_eq_true_iff]

theorem second_edit_pending :
    let s := (Session.opened {} 500).after (Glsl.checkSource .grammar) twoEdits
    ∃ p, s.pending = some p ∧ p.generation = s.generation ∧ s.generation = 2 ∧
      s.submitted = s.compiled + s.superseded + 1 ∧ s.lastDuration.isSome = false := by
  intro s
  obtain ⟨-, hsum, hpending, htimed, -⟩ :=
    submissions_accounted {} 500 (Glsl.checkSource .grammar) twoEdits
  refine ⟨_, rfl, hpending _ rfl, rfl, hsum, ?_⟩
  exact Bool.eq_false_iff.mpr fun h => absurd (htimed.mp h) (by decide)

end NodeShader
