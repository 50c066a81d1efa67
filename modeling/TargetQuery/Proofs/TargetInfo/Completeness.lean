import TargetQuery.Proofs.Json.Completeness
import TargetQuery.Proofs.TargetInfo.Records

/-!
# Decoding and the schema

A text is decoded if and only if some way to read it as a value has a meaning as target information,
and then that is what is decoded. Here the values of unknown members may be anything, and every
record may be written as a list.
-/

namespace TargetQuery

open Json Grammar

theorem Triple.complete_read : Complete Triple.read Triple.ofTree? :=
  (complete_textValue "a string").map Triple.mk

namespace Target

/-- Every tree of a target is read. -/
theorem complete_read {room : Nat} (enough : 2 ≤ room) :
    Complete (record.read room) ofTree? := by
  have complete : ∀ field ∈ record.fields, ∀ d,
      Complete (field.read (room - 1) d) (fill field.name d) := by
    intro field member d
    have triple := Triple.complete_read
    simp only [record, List.mem_cons, List.not_mem_nil, or_false] at member
    rcases member with rfl | rfl | rfl | rfl
    · exact triple.map _
    · exact triple.map _
    · exact triple.map _
    · exact complete_boolValue.map _
  have h := Record.complete_read enough complete
  rwa [show record.ofTree? fill = ofTree? from funext record_ofTree?] at h

end Target

namespace RuntimePaths

/-- Every tree of paths is read. -/
theorem complete_read {room : Nat} (enough : 3 ≤ room) :
    Complete (record.read room) ofTree? := by
  have complete : ∀ field ∈ record.fields, ∀ d,
      Complete (field.read (room - 1) d) (fill field.name d) := by
    intro field member d
    have texts : Complete (textList (room - 1)) texts? :=
      complete_listValue (by omega) (complete_textValue "a string")
    simp only [record, List.mem_cons, List.not_mem_nil, or_false] at member
    rcases member with rfl | rfl | rfl
    · exact texts.map _
    · exact texts.map _
    · exact (complete_textValue "a string").map _
  have h := Record.complete_read (by omega) complete
  rwa [show record.ofTree? fill = ofTree? from funext record_ofTree?] at h

end RuntimePaths

namespace TargetInfo

/-- Every tree of target information is read. -/
theorem complete_read {room : Nat} (enough : 4 ≤ room) :
    Complete (record.read room) ofTree? := by
  have complete : ∀ field ∈ record.fields, ∀ d,
      Complete (field.read (room - 1) d) (fill field.name d) := by
    intro field member d
    have target : Complete (Target.record.read (room - 1)) Target.ofTree? :=
      Target.complete_read (by omega)
    have paths : Complete (RuntimePaths.record.read (room - 1)) RuntimePaths.ofTree? :=
      RuntimePaths.complete_read (by omega)
    simp only [record, List.mem_cons, List.not_mem_nil, or_false] at member
    rcases member with rfl | rfl | rfl
    · exact target.map _
    · exact (complete_nullable target).map _
    · exact (complete_nullable paths).map _
  have h := Record.complete_read (by omega) complete
  rwa [show record.ofTree? fill = ofTree? from funext record_ofTree?] at h

/-- A text is decoded as what one of its readings means. -/
theorem decode_eq_ok_iff {s : Bytes} {i : TargetInfo} :
    decode s = .ok i ↔ ∃ t, Document t s ∧ ofTree? t = some i := by
  constructor
  · intro h
    obtain ⟨c, read, after⟩ := run_eq_ok (run_of_decode h)
    obtain ⟨t, a, before, value, meant⟩ := sound_read maxDepth 0 s i c read
    exact ⟨t, .mk before value after, meant⟩
  · rintro ⟨t, written, meant⟩
    have takes := complete_read (by decide : 4 ≤ maxDepth) t i meant
    exact decode_of_run (takes.run written)

end TargetInfo

end TargetQuery
