import TargetQuery.Ask
import TargetQuery.Proofs.Diagnostic.Rendering
import TargetQuery.Proofs.Text.Occurrence

/-!
# The cause behind an error

What people are told about an error holds the message of the error. If an output could not be read,
it also holds what lies behind that: as part of the message, or as a line of context. If a command
could not be started the message is all there is, and it does not say why.
-/

namespace TargetQuery

theorem occurs_of_mem_lines {line : String} {lines : List String} (mem : line ∈ lines) :
    Occurs line (unlines lines) := by
  have ended : line ++ "\n" ∈ lines.map (· ++ "\n") := List.mem_map_of_mem mem
  exact ((Occurs.refl line).before "\n").trans (.of_mem_join ended)

namespace Diagnostic

variable {d : Diagnostic}

/-- The message is in the headline. -/
theorem occurs_message (d : Diagnostic) : Occurs d.message (d.render false) := by
  rw [render_plain]
  have headline : d.severity.name ++ ": " ++ d.message ∈ d.plainLines := List.mem_cons_self
  exact ((Occurs.refl d.message).behind _).trans (occurs_of_mem_lines headline)

theorem occurs_context {line : String} (mem : line ∈ d.context) :
    Occurs line (d.render false) := by
  rw [render_plain]
  have there : "  = " ++ line ∈ d.plainLines := by
    rw [plainLines]
    apply List.mem_append_left
    exact List.mem_cons_of_mem _ (List.mem_map_of_mem mem)
  exact ((Occurs.refl line).behind _).trans (occurs_of_mem_lines there)

end Diagnostic

namespace QueryError

theorem message_diagnostic (error : QueryError) : error.diagnostic.message = error.message := by
  cases error with
  | lookup e => cases e <;> rfl
  | execution e => cases e <;> rfl
  | decoding e => cases e <;> rfl

/-- What is told about an output that could not be read says what lies behind it. -/
theorem occurs_problem (e : TargetInfo.DecodeError) :
    Occurs e.problem.message ((decoding e).diagnostic.render false) := by
  cases e with
  | malformed problem =>
    have told : problem.message ∈ (decoding (.malformed problem)).diagnostic.context :=
      List.mem_singleton_self _
    exact Diagnostic.occurs_context told
  | wrongShape problem =>
    have told : Occurs problem.message (decoding (.wrongShape problem)).message :=
      (Occurs.refl problem.message).behind _
    rw [← message_diagnostic] at told
    exact told.trans (Diagnostic.occurs_message _)

/-- What is told about a command that could not be started is the headline alone. -/
theorem render_of_cause {e : ExecutionError} {failure : SystemFailure}
    (caused : e.cause? = some failure) :
    (execution e).diagnostic.render false = unlines ["error: " ++ e.message] := by
  rw [Diagnostic.render_plain]
  cases e with
  | spawn program failure => rfl
  | inPlace program failure => rfl
  | responseFile failure => rfl
  | failed command status errors => cases caused
  | unsupportedTool tool => cases caused

/-- People are always told the message of an error. They are told the cause behind it if an output
could not be read. If a command could not be started they are told the cause only where the headline
happens to hold the same words. -/
theorem tells_cause_iff (error : QueryError) {cause : String}
    (caused : error.cause? = some cause) :
    Occurs error.message (error.diagnostic.render false) ∧
      (Occurs cause (error.diagnostic.render false) ↔
        (∃ e, error = .decoding e) ∨ Occurs cause ("error: " ++ error.message ++ "\n")) := by
  constructor
  · rw [← message_diagnostic]
    exact Diagnostic.occurs_message _
  cases error with
  | lookup e => cases caused
  | decoding e =>
    obtain rfl := Option.some.inj caused
    exact iff_of_true (occurs_problem e) (.inl ⟨e, rfl⟩)
  | execution e =>
    obtain ⟨failure, behind, -⟩ := Option.map_eq_some_iff.mp caused
    have headline : unlines ["error: " ++ e.message] = "error: " ++ e.message ++ "\n" := by
      rw [unlines_cons, unlines, List.map_nil, String.join_nil, String.append_empty]
    rw [render_of_cause behind, headline]
    constructor
    · exact .inr
    · rintro (⟨e', other⟩ | told)
      · cases other
      · exact told

/-- An object that ends too early: the context says what was being read. -/
theorem tells_cause_iff_malformed :
    let error : QueryError := .decoding (.malformed ⟨.fault .endInObject, ⟨3, 0⟩⟩)
    let cause := "EOF while parsing an object at line 3 column 0"
    error.cause? = some cause ∧
      Occurs "target info is not well-formed JSON at line 3, column 0"
        (error.diagnostic.render false) ∧
      Occurs cause (error.diagnostic.render false) := by
  intro error cause
  have caused : error.cause? = some cause := by decide +kernel
  have told := tells_cause_iff error caused
  exact ⟨caused, told.1, told.2.mpr (.inl ⟨_, rfl⟩)⟩

/-- A frontend that may not be run: nobody is told that it is a matter of permission. -/
theorem cause_untold :
    let error : QueryError :=
      .execution (.spawn (Path.ofString "/usr/bin/swift-frontend") .permissionDenied)
    error.cause? = some "Permission denied (os error 13)" ∧
      "Permission denied (os error 13)" ≠ "" ∧
      ¬ Occurs "Permission denied (os error 13)" (error.diagnostic.render false) := by
  decide +kernel

end QueryError

end TargetQuery
