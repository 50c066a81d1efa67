import TargetQuery.Proofs.Json.Rendering
import TargetQuery.Proofs.TargetInfo.Records

/-!
# Encoding and decoding

What is encoded is decoded again, from the pretty text and from the compact one, whatever strings
the answer holds. So no two answers are encoded alike.
-/

namespace TargetQuery

open Json

theorem RuntimePaths.texts?_toTree (xs : List String) :
    texts? (Value.list (xs.map .text)).toTree = some xs := by
  induction xs with
  | nil => rfl
  | cons x xs ih =>
    have step : texts? (Value.list ((x :: xs).map .text)).toTree
      = texts? (Value.list (xs.map .text)).toTree >>= fun more => some (x :: more) :=
      List.mapM_cons
    rw [step, ih]
    rfl

theorem RuntimePaths.ofTree?_toJson (p : RuntimePaths) :
    RuntimePaths.ofTree? p.toJson.toTree = some p := by
  have fields : RuntimePaths.ofTree? p.toJson.toTree = (do
      let libraries ← texts? (Value.list (p.libraries.map .text)).toTree
      let imports ← texts? (Value.list (p.imports.map .text)).toTree
      pure { libraries, imports, resource := p.resource }) := rfl
  rw [fields, texts?_toTree, texts?_toTree]
  rfl

namespace TargetInfo

theorem ofTree?_toJson (i : TargetInfo) : ofTree? i.toJson.toTree = some i := by
  obtain ⟨target, variant, paths⟩ := i
  cases paths with
  | none => cases variant <;> rfl
  | some p =>
    have read : p.toJson.toTree.nullable? RuntimePaths.ofTree? = some (some p) :=
      congrArg (some <$> ·) p.ofTree?_toJson
    have fields : ofTree? (toJson { target, variant, paths := some p }).toTree = (do
        let paths ← some <$> p.toJson.toTree.nullable? RuntimePaths.ofTree?
        pure { target, variant, paths := paths.join }) := by
      cases variant <;> rfl
    rw [fields, read]
    rfl

/-- No record is written as a list. -/
theorem objectsOnly_toJson (i : TargetInfo) : ObjectsOnly i.toJson.toTree := by
  obtain ⟨target, variant, paths⟩ := i
  refine ⟨fun _ e => (by cases e), fun members e name _ => ?_⟩
  obtain rfl := Tree.object.inj e
  have all : ∀ m ∈ Value.memberTrees (("target", target.toJson)
      :: (variant.toList.map fun t => ("targetVariant", t.toJson))
      ++ (paths.toList.map fun p => ("paths", p.toJson))), m.2.NotList := by
    cases variant <;> cases paths <;>
      simp [Value.memberTrees, Tree.NotList, Target.toJson, RuntimePaths.toJson, Value.toTree]
  intro value under
  obtain ⟨m, member, found⟩ := List.mem_filterMap.mp under
  split at found
  · rw [← Option.some.inj found]
    exact all m member
  · cases found

theorem decode_encode (i : TargetInfo) : decode (Utf8.encode i.encode) = .ok i :=
  decode_eq_ok i.toJson.document_toPretty i.toJson.legible_toTree i.objectsOnly_toJson
    i.ofTree?_toJson

/-- The answer is decoded from a line of its own, too. -/
theorem decode_encode_line (i : TargetInfo) : decode (Utf8.encode (i.encode ++ "\n")) = .ok i :=
  decode_eq_ok i.toJson.document_toPretty_line i.toJson.legible_toTree i.objectsOnly_toJson
    i.ofTree?_toJson

theorem decode_toCompact (i : TargetInfo) : decode (Utf8.encode i.toJson.toCompact) = .ok i :=
  decode_eq_ok i.toJson.document_toCompact i.toJson.legible_toTree i.objectsOnly_toJson
    i.ofTree?_toJson

theorem encode_injective : Function.Injective encode := by
  intro i j h
  have read := decode_encode i
  rw [h, decode_encode] at read
  exact (Except.ok.inj read).symm

/-- Every answer is read back from both of its texts, so no two have the same text. What was decoded
from any text is decoded again from its own text, which it is encoded to again. -/
theorem encode_round_trip :
    (∀ i : TargetInfo, decode (Utf8.encode i.encode) = .ok i ∧
      decode (Utf8.encode i.toJson.toCompact) = .ok i) ∧
    Function.Injective encode ∧
    ∀ s, (decode s >>= fun i => decode (Utf8.encode i.encode)) = decode s ∧
      (decode s >>= fun i => decode (Utf8.encode i.encode)).map encode = (decode s).map encode := by
  refine ⟨fun i => ⟨decode_encode i, decode_toCompact i⟩, encode_injective, fun s => ?_⟩
  have again : (decode s >>= fun i => decode (Utf8.encode i.encode)) = decode s := by
    cases decode s with
    | error e => rfl
    | ok i =>
      simp only [bind, Except.bind]
      exact decode_encode i
  exact ⟨again, congrArg (Except.map encode) again⟩

end TargetInfo

end TargetQuery
