import TargetQuery.Proofs.Json.SteadyRecord
import TargetQuery.Proofs.TargetInfo.Decoding

/-!
# The end of a captured text

A text that is decoded may gain or lose white space at its end. It may gain nothing else, and where
anything else is cut off, the text is malformed at the cut: a part of a record is not taken for a
record of the wrong shape.
-/

namespace TargetQuery

open Json Grammar

theorem Triple.steady_read : Steady never Triple.read :=
  (steady_textValue "a string").map_never Triple.mk

theorem Target.steady_read (room : Nat) : Steady never (record.read room) := by
  refine Record.steady_read (fun field member room d => ?_) room
  have triple := Triple.steady_read
  simp only [record, List.mem_cons, List.not_mem_nil, or_false] at member
  rcases member with rfl | rfl | rfl | rfl
  · exact triple.map_never _
  · exact triple.map_never _
  · exact triple.map_never _
  · exact steady_boolValue.map_never _

namespace RuntimePaths

theorem steady_textList (room : Nat) : Steady never (textList room) :=
  steady_listValue (fun _ => steady_textValue "a string") (fun _ => sound_textValue "a string") room

theorem steady_read (room : Nat) : Steady never (record.read room) := by
  refine Record.steady_read (fun field member room d => ?_) room
  simp only [record, List.mem_cons, List.not_mem_nil, or_false] at member
  rcases member with rfl | rfl | rfl
  · exact (steady_textList room).map_never _
  · exact (steady_textList room).map_never _
  · exact (steady_textValue "a string").map_never _

end RuntimePaths

namespace TargetInfo

theorem steady_read (room : Nat) : Steady never (record.read room) := by
  refine Record.steady_read (fun field member room d => ?_) room
  have target := Target.steady_read room
  have paths := RuntimePaths.steady_read room
  simp only [record, List.mem_cons, List.not_mem_nil, or_false] at member
  rcases member with rfl | rfl | rfl
  · exact target.map_never _
  · exact (steady_nullable target (Record.hungry_read room)).map_never _
  · exact (steady_nullable paths (Record.hungry_read room)).map_never _

theorem decode_of_fault {s : Bytes} {f : Fault} {k : Nat}
    (h : (record.read maxDepth).run s = .error ⟨.fault f, k⟩) :
    decode s = .error (.malformed ⟨.fault f, Position.after (s.take k)⟩) := by
  rw [decode, h]
  cases f <;> rfl

/-- White space at the end makes no difference. Any other cut, and any other addition, leaves a text
that is malformed, and a cut is noticed where it is. -/
theorem decode_framing {s : Bytes} {i : TargetInfo} (h : decode s = .ok i) :
    (∀ p q : Bytes, p ++ q = s →
      if q.all isSpace then decode p = .ok i
      else ∃ problem, decode p = .error (.malformed problem) ∧
        problem.position = Position.after p) ∧
    ∀ t : Bytes,
      if t.all isSpace then decode (s ++ t) = .ok i
      else ∃ problem, decode (s ++ t) = .error (.malformed problem) := by
  have steady := steady_read maxDepth
  have run := run_of_decode h
  constructor
  · rintro p q rfl
    rcases steady.run_prefix run with ⟨blank, run⟩ | ⟨more, f, run⟩
    · rw [if_pos (blank_iff.mp blank)]
      exact decode_of_run run
    · rw [if_neg (mt blank_iff.mpr more)]
      exact ⟨_, decode_of_fault run, by rw [List.take_length]⟩
  · intro t
    rcases steady.run_append run t with ⟨blank, run⟩ | ⟨more, f, k, run⟩
    · rw [if_pos (blank_iff.mp blank)]
      exact decode_of_run run
    · rw [if_neg (mt blank_iff.mpr more)]
      exact ⟨_, decode_of_fault run⟩

/-- Without its last brace the text ends too early, and with a second one there is too much. -/
theorem decode_framing_brokenString :
    (∃ problem, decode brokenString.dropLast = .error (.malformed problem) ∧
      problem.position = ⟨1, 40⟩) ∧
    (∃ problem, decode (brokenString ++ [Ascii.closeBrace]) = .error (.malformed problem)) ∧
    decode (brokenString ++ [Ascii.newline]) = decode brokenString := by
  have read : decode brokenString = .ok { target := ⟨⟨""⟩, ⟨"a"⟩, ⟨"b"⟩, true⟩ } := rfl
  obtain ⟨before, behind⟩ := decode_framing read
  exact ⟨before brokenString.dropLast [Ascii.closeBrace] rfl, behind [Ascii.closeBrace],
    behind [Ascii.newline]⟩

end TargetInfo

end TargetQuery
