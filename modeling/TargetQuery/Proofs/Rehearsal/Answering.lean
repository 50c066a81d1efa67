import TargetQuery.Rehearsal.Basic
import TargetQuery.Proofs.Text.Occurrence

/-!
# What answers a command

The first expectation that is ready for a command answers it and is used once more. Where none is
ready the fallback answers and nothing is used; without a fallback the command counts as one that
could not be started.
-/

namespace TargetQuery

theorem occursIn_iff {part text : List Char} : occursIn part text = true ↔ part <:+: text := by
  induction text with
  | nil => rw [occursIn, List.isEmpty_iff, List.infix_nil]
  | cons c rest ih =>
    rw [occursIn, Bool.or_eq_true, List.isPrefixOf_iff_prefix, ih, List.infix_cons_iff]

/-- A command is the text that is meant, or holds it. -/
def CommandPattern.Describes : CommandPattern → String → Prop
  | .exact text, command => command = text
  | .contains text, command => Occurs text command
  | .any, _ => True

theorem CommandPattern.accepts_iff {p : CommandPattern} {command : String} :
    p.accepts command = true ↔ p.Describes command := by
  cases p with
  | exact text => exact beq_iff_eq
  | contains text => exact occursIn_iff
  | any => exact iff_of_true rfl trivial

namespace Expectation

variable {e : Expectation} {command : String}

/-- The expectation describes the command and is not used up. -/
structure Ready (e : Expectation) (command : String) : Prop where
  describes : e.pattern.Describes command
  unspent : ∀ n, e.times? = some n → e.used < n

theorem isAvailable_iff : e.isAvailable = true ↔ ∀ n, e.times? = some n → e.used < n := by
  rw [isAvailable]
  cases e.times? with
  | none => simp
  | some n => simp

theorem answers_iff : e.answers command = true ↔ e.Ready command := by
  rw [answers, Bool.and_eq_true, CommandPattern.accepts_iff, isAvailable_iff]
  constructor
  · rintro ⟨describes, unspent⟩
    exact ⟨describes, unspent⟩
  · intro ready
    exact ⟨ready.describes, ready.unspent⟩

instance (e : Expectation) (command : String) : Decidable (e.Ready command) :=
  decidable_of_iff _ answers_iff

end Expectation

namespace Rehearsal

variable {command : String} {all before behind : List Expectation} {e : Expectation}

/-- The first expectation that is ready for a command, between those before and those behind it. -/
structure First (command : String) (all before : List Expectation) (e : Expectation)
    (behind : List Expectation) : Prop where
  split : all = before ++ e :: behind
  passed : ∀ x ∈ before, ¬ x.Ready command
  ready : e.Ready command

/-- No expectation is ready for the command. -/
def Unexpected (command : String) (all : List Expectation) : Prop :=
  ∀ e ∈ all, ¬ e.Ready command

instance (command : String) (all : List Expectation) : Decidable (Unexpected command all) :=
  inferInstanceAs (Decidable (∀ e ∈ all, ¬ e.Ready command))

theorem exists_first_or_unexpected (command : String) (all : List Expectation) :
    (∃ before e behind, First command all before e behind) ∨ Unexpected command all := by
  induction all with
  | nil => exact .inr (List.forall_mem_nil _)
  | cons x rest ih =>
    by_cases ready : x.Ready command
    · exact .inl ⟨[], x, rest, rfl, List.forall_mem_nil _, ready⟩
    · obtain ⟨before, e, behind, first⟩ | unexpected := ih
      · refine .inl ⟨x :: before, e, behind, ?_, ?_, first.ready⟩
        · rw [first.split, List.cons_append]
        · exact List.forall_mem_cons.mpr ⟨ready, first.passed⟩
      · exact .inr (List.forall_mem_cons.mpr ⟨ready, unexpected⟩)

theorem answer_cons_of_not_ready {x : Expectation} (passed : ¬ x.Ready command)
    (rest : List Expectation) :
    answer command (x :: rest) = ((answer command rest).1, x :: (answer command rest).2) := by
  have silent : ¬ x.answers command = true := fun h => passed (Expectation.answers_iff.mp h)
  rw [answer, if_neg silent]

theorem answer_of_first (first : First command all before e behind) :
    answer command all =
      (some e.reply, before ++ { e with used := e.used + 1 } :: behind) := by
  obtain ⟨rfl, passed, ready⟩ := first
  induction before with
  | nil =>
    rw [List.nil_append, answer, if_pos (Expectation.answers_iff.mpr ready)]
    rfl
  | cons x before ih =>
    obtain ⟨here, later⟩ := List.forall_mem_cons.mp passed
    rw [List.cons_append, answer_cons_of_not_ready here, ih later]
    rfl

theorem answer_of_unexpected (unexpected : Unexpected command all) :
    answer command all = (none, all) := by
  induction all with
  | nil => rfl
  | cons x rest ih =>
    obtain ⟨here, later⟩ := List.forall_mem_cons.mp unexpected
    rw [answer_cons_of_not_ready here, ih later]

/-- The reply to a command: that of the first expectation that is ready for it, or the fallback if
none is. -/
inductive Answers (r : Rehearsal) (command : String) : Reply → Prop
  | expected {before behind : List Expectation} {e : Expectation}
    (first : First command r.expectations before e behind) : Answers r command e.reply
  | fallback {reply : Reply} (unexpected : Unexpected command r.expectations)
    (fallback : r.fallback? = some reply) : Answers r command reply

theorem answer_of_answers {r : Rehearsal} {reply : Reply} (answers : r.Answers command reply) :
    (answer command r.expectations).1.or r.fallback? = some reply := by
  cases answers with
  | expected first => rw [answer_of_first first, Option.some_or]
  | fallback unexpected fallback =>
    rw [answer_of_unexpected unexpected, Option.none_or, fallback]

/-- What a reply means for the command that gets it. -/
def result (command : String) (reply : Reply) : Except ExecutionError Bytes :=
  if reply.status = 0 then .ok (Utf8.encode reply.output)
  else .error (.failed command (some reply.status) reply.errors)

theorem outcome_some (j : Job) (reply : Reply) :
    outcome j (some reply) = result j.displayCommand reply := by
  simp only [outcome, result, Reply.succeeded, beq_iff_eq]

/-- What is said of a job that nobody expects. -/
def refusal (j : Job) : ExecutionError :=
  .spawn (j.tool.path?.getD ⟨[]⟩) (.absent ("unexpected command: " ++ j.displayCommand))

/-- The rehearsal after a job, with the expectations that are left of it. -/
def record (r : Rehearsal) (j : Job) (expectations : List Expectation) : Rehearsal :=
  { r with
    expectations
    commands := r.commands ++ [j.displayCommand]
    jobs := r.jobs ++ [j] }

theorem run_execute (j : Job) (r : Rehearsal) :
    (execute j).run r =
      (outcome j ((answer j.displayCommand r.expectations).1.or r.fallback?),
        r.record j (answer j.displayCommand r.expectations).2) := by
  change (outcome j ((answer j.displayCommand r.expectations).1 <|> r.fallback?), _) = _
  rw [Option.orElse_eq_orElse, Option.orElse_eq_or]
  rfl

/-- What the run of a job gives, and the rehearsal that it leaves: the first expectation that is
ready is used once more and no other is, or none is ready and none is used. -/
inductive Executed (r : Rehearsal) (j : Job) :
    Except ExecutionError Bytes → Rehearsal → Prop
  | expected {before behind : List Expectation} {e : Expectation}
    (first : First j.displayCommand r.expectations before e behind) :
    Executed r j (result j.displayCommand e.reply)
      (r.record j (before ++ { e with used := e.used + 1 } :: behind))
  | fallback {reply : Reply} (unexpected : Unexpected j.displayCommand r.expectations)
    (fallback : r.fallback? = some reply) :
    Executed r j (result j.displayCommand reply) (r.record j r.expectations)
  | refused (unexpected : Unexpected j.displayCommand r.expectations)
    (noFallback : r.fallback? = none) :
    Executed r j (.error (refusal j)) (r.record j r.expectations)

theorem executed_execute (j : Job) (r : Rehearsal) :
    Executed r j ((execute j).run r).1 ((execute j).run r).2 := by
  rw [run_execute]
  obtain ⟨before, e, behind, first⟩ | unexpected :=
    exists_first_or_unexpected j.displayCommand r.expectations
  · rw [answer_of_first first, Option.some_or, outcome_some]
    exact .expected first
  · rw [answer_of_unexpected unexpected, Option.none_or]
    cases fallback : r.fallback? with
    | some reply =>
      rw [outcome_some]
      exact .fallback unexpected fallback
    | none => exact .refused unexpected fallback

end Rehearsal

end TargetQuery
