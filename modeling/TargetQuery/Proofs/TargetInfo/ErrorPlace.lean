import TargetQuery.Proofs.Json.SightRecord
import TargetQuery.Proofs.TargetInfo.Decoding

/-!
# Where a text is wrong

The place of an error lies in the text, and with one more byte it contains all that the error
depends on. Only a string that is not text is pointed at in front of what was read: it has been read
up to its end, and any other end would have been another error.
-/

namespace TargetQuery

open Json Grammar

theorem Triple.shortsighted_read : Shortsighted Triple.read :=
  (shortsighted_textValue "a string").map Triple.mk

theorem Target.shortsighted_read (room : Nat) : Shortsighted (record.read room) := by
  refine Record.shortsighted_read (fun field member room d => ?_) room
  have triple := Triple.shortsighted_read
  simp only [record, List.mem_cons, List.not_mem_nil, or_false] at member
  rcases member with rfl | rfl | rfl | rfl
  · exact triple.map _
  · exact triple.map _
  · exact triple.map _
  · exact shortsighted_boolValue.map _

namespace RuntimePaths

theorem shortsighted_textList (room : Nat) : Shortsighted (textList room) :=
  shortsighted_listValue (fun _ => shortsighted_textValue "a string")
    (fun _ _ _ _ run => (sound_textValue "a string").length_lt run) room

theorem shortsighted_read (room : Nat) : Shortsighted (record.read room) := by
  refine Record.shortsighted_read (fun field member room d => ?_) room
  simp only [record, List.mem_cons, List.not_mem_nil, or_false] at member
  rcases member with rfl | rfl | rfl
  · exact (shortsighted_textList room).map _
  · exact (shortsighted_textList room).map _
  · exact (shortsighted_textValue "a string").map _

end RuntimePaths

namespace TargetInfo

theorem shortsighted_read (room : Nat) : Shortsighted (record.read room) := by
  refine Record.shortsighted_read (fun field member room d => ?_) room
  have target := Target.shortsighted_read room
  have paths := RuntimePaths.shortsighted_read room
  simp only [record, List.mem_cons, List.not_mem_nil, or_false] at member
  rcases member with rfl | rfl | rfl
  · exact target.map _
  · exact (shortsighted_nullable target).map _
  · exact (shortsighted_nullable paths).map _

theorem problem_ofProblem (p : LocatedError) : (DecodeError.ofProblem p).problem = p := by
  rw [DecodeError.ofProblem]
  cases p.cause.category <;> rfl

theorem decode_eq_error {s : Bytes} {e : DecodeError} :
    decode s = .error e ↔ ∃ problem, (record.read maxDepth).run s = .error problem ∧
      e = .ofProblem (problem.locate s) := by
  rw [decode]
  cases (record.read maxDepth).run s with
  | ok i => simp [Except.mapError]
  | error problem => simp [Except.mapError, eq_comm]

/-- An error in texts that agree up to its place has the same place in them. -/
theorem decode_of_run_error {s other : Bytes} {problem : Error}
    (failed : (record.read maxDepth).run other = .error problem)
    (same : other.take problem.offset = s.take problem.offset) :
    decode other = .error (.ofProblem (problem.locate s)) :=
  decode_eq_error.mpr ⟨problem, failed, by rw [Error.locate, Error.locate, same]⟩

/-- The place of an error lies in the text. All texts with the same bytes up to the one behind that
place have the same error there. If the error is a string that is not text, the place lies in the
string, and all texts with the same bytes up to the end of the string have the same error there. -/
theorem decode_error_place {s : Bytes} {e : DecodeError} (failed : decode s = .error e) :
    ∃ k ≤ s.length, e.problem.position = Position.after (s.take k) ∧
      (e.problem.cause ≠ .fault .badUnicode → k < s.length → ∀ other : Bytes,
        other.take (k + 1) = s.take (k + 1) → decode other = .error e) ∧
      (e.problem.cause = .fault .badUnicode → ∃ before token behind,
        s = before ++ (token ++ behind) ∧ LooseChars token [] ∧
          before.length < k ∧ k ≤ before.length + token.length ∧
          ∀ other, decode (before ++ (token ++ other)) = .error e) := by
  obtain ⟨problem, run, rfl⟩ := decode_eq_error.mp failed
  rw [problem_ofProblem]
  obtain ⟨ended, noText⟩ | ⟨u, w, split, shows, again⟩ :=
    (shortsighted_read maxDepth).run_eq_error run
  · refine ⟨problem.offset, Nat.le_of_eq ended, rfl, fun _ before => ?_, fun text => ?_⟩
    · omega
    · exact absurd text noText
  have upper := shows.upper
  rw [Nat.zero_add] at upper
  refine ⟨problem.offset, ?_, rfl, fun noText _ other same => ?_, fun text => ?_⟩
  · rw [split, List.length_append]
    omega
  · -- All that has been seen is among the bytes that the texts have in common.
    have seen := shows.last noText
    rw [Nat.zero_add] at seen
    have common : other.take u.length = u := by
      calc other.take u.length = (other.take (problem.offset + 1)).take u.length := by
            rw [List.take_take, Nat.min_eq_left seen]
        _ = (s.take (problem.offset + 1)).take u.length := by rw [same]
        _ = u := by rw [List.take_take, Nat.min_eq_left seen, split, List.take_left]
    have rest := again (other.drop u.length)
    nth_rewrite 1 [← common] at rest
    rw [List.take_append_drop] at rest
    refine decode_of_run_error rest ?_
    calc other.take problem.offset = (other.take (problem.offset + 1)).take problem.offset := by
          rw [List.take_take, Nat.min_eq_left (Nat.le_succ _)]
      _ = s.take problem.offset := by
          rw [same, List.take_take, Nat.min_eq_left (Nat.le_succ _)]
  · obtain ⟨before, token, rfl, loose, later⟩ := shows.within text
    rw [Nat.zero_add] at later
    rw [List.length_append] at upper
    refine ⟨before, token, w, by rw [split, List.append_assoc], loose, later, upper,
      fun other => ?_⟩
    rw [← List.append_assoc]
    refine decode_of_run_error (again other) ?_
    have within : problem.offset ≤ (before ++ token).length := by
      rw [List.length_append]
      exact upper
    rw [split, List.take_append_of_le_length within, List.take_append_of_le_length within]

def nullTarget : Bytes :=
  [0x7B, 0x22, 0x74, 0x61, 0x72, 0x67, 0x65, 0x74, 0x22, 0x3A, 0x6E, 0x75, 0x6C, 0x6C, 0x7D]

/-- The wrong shape shows behind the null, and whatever comes behind the brace does not count. -/
theorem decode_error_place_nullTarget :
    ∃ problem : LocatedError, problem.position = ⟨1, 14⟩ ∧
      decode nullTarget = .error (.wrongShape problem) ∧
      ∀ behind, decode (nullTarget ++ behind) = .error (.wrongShape problem) := by
  obtain ⟨m, read⟩ : ∃ m, decode nullTarget = .error (.wrongShape ⟨.mismatch m, ⟨1, 14⟩⟩) :=
    ⟨_, rfl⟩
  obtain ⟨k, bound, place, stays, -⟩ := decode_error_place read
  have unique : ∀ k ≤ nullTarget.length, (⟨1, 14⟩ : Position) = Position.after (nullTarget.take k) →
      k = 14 := by decide
  obtain rfl := unique k bound place
  refine ⟨_, rfl, read, fun behind => stays (by simp [DecodeError.problem]) (by decide) _ ?_⟩
  exact List.take_append_of_le_length (by decide)

/-- A name in which the first byte cannot be part of any text. -/
def brokenName : Bytes := [Ascii.openBrace, Ascii.doubleQuote, 0xFF, 0x61, Ascii.doubleQuote]

/-- The error of the broken name lies behind its first byte, but without the quote at its end there
is another error. -/
theorem decode_error_beyond_place :
    ¬ ∀ (s : Bytes) (e : DecodeError), decode s = .error e →
      ∃ k ≤ s.length, e.problem.position = Position.after (s.take k) ∧
        (k < s.length → ∀ other : Bytes, other.take (k + 1) = s.take (k + 1) →
          decode other = .error e) := by
  intro claim
  have read : decode brokenName = .error (.malformed ⟨.fault .badUnicode, ⟨1, 3⟩⟩) := rfl
  have cut : decode brokenName.dropLast = .error (.malformed ⟨.fault .endInString, ⟨1, 4⟩⟩) := rfl
  obtain ⟨k, bound, place, stays⟩ := claim _ _ read
  have unique : ∀ k ≤ brokenName.length, (⟨1, 3⟩ : Position) = Position.after (brokenName.take k) →
      k = 3 := by decide
  obtain rfl := unique k bound place
  have same := stays (by decide) brokenName.dropLast (by decide)
  rw [cut] at same
  simp at same

end TargetInfo

end TargetQuery
