import Mathlib.Logic.Relation
import TargetQuery.Query

/-!
# Jobs described in steps

Every step in the description of a job is about one subject. Of some subjects all that is said is
kept, in the order in which it was said, and of the others what was said last. No step touches a
subject that it is not about. So a job depends on what is said about each subject, and not on how
the steps about different subjects are mixed.
-/

namespace TargetQuery

namespace Job

/-- What a step can be about. The kind and the tool of a job are settled before the first step. -/
inductive Subject where
  | moduleName
  | arguments
  | displayInputs
  | inputs
  | outputs
  | inPlace
  | responseFiles
deriving DecidableEq, Repr

def Step.subject : Step → Subject
  | .moduleName _ => .moduleName
  | .argument _ | .arguments _ => .arguments
  | .displayInput _ => .displayInputs
  | .input _ => .inputs
  | .output _ => .outputs
  | .inPlace _ => .inPlace
  | .responseFiles _ => .responseFiles

namespace Subject

/-- A single thing that can be said about a subject. -/
@[reducible]
def Value : Subject → Type
  | .moduleName => String
  | .arguments => Argument
  | .displayInputs | .inputs | .outputs => TypedLocation
  | .inPlace | .responseFiles => Bool

/-- What a step says about a subject. -/
def said : (f : Subject) → Step → List f.Value
  | .moduleName, .moduleName name => [name]
  | .arguments, .argument a => [a]
  | .arguments, .arguments as => as
  | .displayInputs, .displayInput x => [x]
  | .inputs, .input x => [x]
  | .outputs, .output x => [x]
  | .inPlace, .inPlace b => [b]
  | .responseFiles, .responseFiles b => [b]
  | _, _ => []

/-- What a job holds about a subject. -/
def held : (f : Subject) → Job → List f.Value
  | .moduleName, j => [j.moduleName]
  | .arguments, j => j.arguments
  | .displayInputs, j => j.displayInputs
  | .inputs, j => j.inputs
  | .outputs, j => j.outputs
  | .inPlace, j => [j.inPlace]
  | .responseFiles, j => [j.responseFiles]

/-- Whether a job holds all that is said about the subject, or only the last. -/
def isCollected : Subject → Bool
  | .arguments | .displayInputs | .inputs | .outputs => true
  | .moduleName | .inPlace | .responseFiles => false

/-- What is kept of all that has been said about a subject. -/
def kept (f : Subject) (values : List f.Value) : List f.Value :=
  if f.isCollected then values else values.getLast?.toList

variable {f : Subject} {s : Step}

theorem said_of_ne (other : s.subject ≠ f) : f.said s = [] := by
  cases s <;> cases f <;> trivial

theorem kept_held (f : Subject) (j : Job) : f.kept (f.held j) = f.held j := by
  cases f <;> rfl

/-- What has been dropped would not be kept later either. -/
theorem kept_kept_append (values more : List f.Value) :
    f.kept (f.kept values ++ more) = f.kept (values ++ more) := by
  rw [kept, kept, kept]
  split
  · rfl
  · rw [List.getLast?_append, List.getLast?_append]
    cases values.getLast? <;> rfl

/-! ### One step -/

/-- No step touches a subject that it is not about. -/
theorem held_apply_of_ne (other : s.subject ≠ f) (j : Job) : f.held (j.apply s) = f.held j := by
  cases s <;> cases f <;> trivial

/-- A step puts what it says behind what is held. Where one thing is held, that takes its place. -/
theorem held_apply (f : Subject) (j : Job) (s : Step) :
    f.held (j.apply s) = f.kept (f.held j ++ f.said s) := by
  by_cases about : s.subject = f
  · subst about
    cases s <;> rfl
  · rw [held_apply_of_ne about, said_of_ne about, List.append_nil, kept_held]

/-! ### Many steps -/

/-- What a job holds about a subject depends on what it held and on what the steps say about it. -/
theorem held_foldl (f : Subject) (j : Job) (steps : List Step) :
    f.held (steps.foldl apply j) = f.kept (f.held j ++ steps.flatMap f.said) := by
  induction steps generalizing j with
  | nil => rw [List.foldl_nil, List.flatMap_nil, List.append_nil, kept_held]
  | cons s steps ih =>
    rw [List.foldl_cons, ih, held_apply, kept_kept_append, List.append_assoc, List.flatMap_cons]

/-- Steps about other subjects say nothing. -/
theorem flatMap_said_filter (f : Subject) (steps : List Step) :
    (steps.filter (·.subject = f)).flatMap f.said = steps.flatMap f.said := by
  induction steps with
  | nil => rfl
  | cons s steps ih =>
    by_cases about : s.subject = f
    · simp only [List.filter_cons, about, decide_true, if_true, List.flatMap_cons, ih]
    · simp only [List.filter_cons, about, decide_false, Bool.false_eq_true, if_false,
        List.flatMap_cons, said_of_ne about, List.nil_append, ih]

/-- Arguments that are given one by one are the same as arguments that are given together. -/
theorem flatMap_said_map_argument (f : Subject) (as : List Argument) :
    (as.map Step.argument).flatMap f.said = f.said (.arguments as) := by
  induction as with
  | nil => cases f <;> rfl
  | cons a as ih =>
    rw [List.map_cons, List.flatMap_cons, ih]
    cases f <;> rfl

end Subject

/-- No step is about the kind or the tool. -/
theorem kind_tool_foldl (j : Job) (steps : List Step) :
    (steps.foldl apply j).kind = j.kind ∧ (steps.foldl apply j).tool = j.tool := by
  induction steps generalizing j with
  | nil => exact ⟨rfl, rfl⟩
  | cons s steps ih =>
    obtain ⟨kind, tool⟩ := ih (j.apply s)
    cases s <;> exact ⟨kind, tool⟩

/-- There is nothing in a job besides its kind, its tool and what it holds about the subjects. -/
theorem eq_of_held_eq {a b : Job} (kind : a.kind = b.kind) (tool : a.tool = b.tool)
    (same : ∀ f : Subject, f.held a = f.held b) : a = b := by
  obtain ⟨moduleName, _, _, arguments, displayInputs, inputs, outputs, inPlace, responseFiles⟩ := a
  obtain rfl : _ = b.kind := kind
  obtain rfl : _ = b.tool := tool
  obtain rfl : moduleName = b.moduleName := List.singleton_inj.mp (same .moduleName)
  obtain rfl : arguments = b.arguments := same .arguments
  obtain rfl : displayInputs = b.displayInputs := same .displayInputs
  obtain rfl : inputs = b.inputs := same .inputs
  obtain rfl : outputs = b.outputs := same .outputs
  obtain rfl : inPlace = b.inPlace := List.singleton_inj.mp (same .inPlace)
  obtain rfl : responseFiles = b.responseFiles := List.singleton_inj.mp (same .responseFiles)
  rfl

/-! ### Whole descriptions -/

variable {kind : JobKind} {tool : Location} {steps others : List Step}

/-- The job in one piece: the name and the flags that were said last, or an empty name and no flags,
and all arguments and files in the order in which they were said. -/
def described (kind : JobKind) (tool : Location) (steps : List Step) : Job where
  moduleName := (steps.flatMap Subject.moduleName.said).getLast?.getD ""
  kind := kind
  tool := tool
  arguments := steps.flatMap Subject.arguments.said
  displayInputs := steps.flatMap Subject.displayInputs.said
  inputs := steps.flatMap Subject.inputs.said
  outputs := steps.flatMap Subject.outputs.said
  inPlace := (steps.flatMap Subject.inPlace.said).getLast?.getD false
  responseFiles := (steps.flatMap Subject.responseFiles.said).getLast?.getD false

theorem build_eq_described (kind : JobKind) (tool : Location) (steps : List Step) :
    build kind tool steps = described kind tool steps := by
  obtain ⟨sameKind, sameTool⟩ := kind_tool_foldl { kind, tool } steps
  refine eq_of_held_eq sameKind sameTool fun f => ?_
  rw [build, Subject.held_foldl]
  cases f with
  | moduleName | inPlace | responseFiles => exact congrArg Option.toList List.getLast?_cons
  | arguments | displayInputs | inputs | outputs => rfl

/-- Descriptions that say the same about each subject describe the same job. -/
theorem build_congr (same : ∀ f : Subject, steps.flatMap f.said = others.flatMap f.said) :
    build kind tool steps = build kind tool others := by
  have settled := kind_tool_foldl { kind, tool }
  refine eq_of_held_eq ((settled steps).1.trans (settled others).1.symm)
    ((settled steps).2.trans (settled others).2.symm) fun f => ?_
  rw [build, build, Subject.held_foldl, Subject.held_foldl, same f]

/-- Two neighbouring steps, about different subjects, have changed places. -/
inductive Exchanged : List Step → List Step → Prop
  | mk {s t : Step} (before after : List Step) : s.subject ≠ t.subject →
      Exchanged (before ++ s :: t :: after) (before ++ t :: s :: after)

theorem Exchanged.flatMap_said (h : Exchanged steps others) (f : Subject) :
    steps.flatMap f.said = others.flatMap f.said := by
  obtain @⟨s, t, before, after, different⟩ := h
  rw [List.flatMap_append, List.flatMap_append]
  by_cases about : s.subject = f
  · have silent : f.said t = [] := Subject.said_of_ne (about ▸ different.symm)
    simp only [List.flatMap_cons, silent, List.nil_append]
  · simp only [List.flatMap_cons, Subject.said_of_ne about, List.nil_append]

theorem flatMap_said_of_reflTransGen (h : Relation.ReflTransGen Exchanged steps others)
    (f : Subject) : steps.flatMap f.said = others.flatMap f.said := by
  induction h with
  | refl => rfl
  | tail _ exchanged ih => exact ih.trans (exchanged.flatMap_said f)

/-- The job of a query is described by what is passed, what comes out, and both flags. -/
theorem build_query (q : Query) (frontend : Path) :
    build .printTargetInfo (.absolute frontend)
      [.arguments q.arguments,
       .output { file := .standardOutput, fileType := .jsonTargetInfo },
       .inPlace q.inPlace, .responseFiles false] = q.job frontend :=
  rfl

/-- A job has the kind and the tool it was begun with, all arguments and files in the order of their
steps, and the name and the flags that were set last. So two descriptions of which the steps about
each single subject are the same describe the same job, steps about different subjects can be
exchanged, and arguments can be given together or one by one. -/
theorem build_by_subject (kind : JobKind) (tool : Location) :
    (∀ steps, build kind tool steps = described kind tool steps) ∧
    (∀ steps, (build kind tool steps).argv
      = (steps.flatMap Subject.arguments.said).map Argument.render) ∧
    (∀ steps others : List Step,
      (∀ f : Subject, steps.filter (·.subject = f) = others.filter (·.subject = f)) →
        build kind tool steps = build kind tool others) ∧
    (∀ steps others, Relation.ReflTransGen Exchanged steps others →
      build kind tool steps = build kind tool others) ∧
    ∀ before as after, build kind tool (before ++ .arguments as :: after)
      = build kind tool (before ++ as.map .argument ++ after) := by
  refine ⟨build_eq_described kind tool, fun steps => ?_, fun steps others agree => ?_,
    fun steps others h => build_congr (flatMap_said_of_reflTransGen h), fun before as after => ?_⟩
  · rw [argv, build_eq_described, described]
  · refine build_congr fun f => ?_
    rw [← Subject.flatMap_said_filter, agree f, Subject.flatMap_said_filter]
  · refine build_congr fun f => ?_
    rw [List.append_assoc, List.flatMap_append, List.flatMap_append, List.flatMap_append,
      List.flatMap_cons, Subject.flatMap_said_map_argument]

/-- The same steps in another mixture, and two steps that have changed places. -/
theorem build_by_subject_mixed :
    let file : TypedLocation := { file := .standardInput, fileType := .jsonTargetInfo }
    let steps : List Step :=
      [.inPlace true, .argument (.flag "-b"), .input file,
       .arguments [.flag "-a", .flag "-b"], .inPlace false]
    let others : List Step :=
      [.argument (.flag "-b"), .arguments [.flag "-a", .flag "-b"],
       .inPlace true, .inPlace false, .input file]
    (∀ f : Subject, steps.filter (·.subject = f) = others.filter (·.subject = f)) ∧
    build .printTargetInfo .standardOutput steps = build .printTargetInfo .standardOutput others ∧
    Relation.ReflTransGen Exchanged [.inPlace true, .input file] [.input file, .inPlace true] ∧
    build .printTargetInfo .standardOutput [.inPlace true, .input file]
      = build .printTargetInfo .standardOutput [.input file, .inPlace true] := by
  intro file steps others
  have agree : ∀ f : Subject, steps.filter (·.subject = f) = others.filter (·.subject = f) := by
    intro f
    cases f <;> rfl
  have exchanged : Relation.ReflTransGen Exchanged [.inPlace true, .input file]
      [.input file, .inPlace true] := .single (.mk [] [] (by decide))
  obtain ⟨-, -, sameSteps, exchangedSteps, -⟩ := build_by_subject .printTargetInfo .standardOutput
  exact ⟨agree, sameSteps _ _ agree, exchanged, exchangedSteps _ _ exchanged⟩

example :
    (build .printTargetInfo .standardOutput
      [.argument (.flag "-b"), .arguments [.flag "-a", .flag "-c"], .argument (.flag "-a")]).argv
      = ["-b", "-a", "-c", "-a"].map Utf8.encode :=
  rfl

end Job

end TargetQuery
