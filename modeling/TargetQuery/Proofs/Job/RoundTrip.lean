import TargetQuery.Proofs.Job.Writing
import TargetQuery.Proofs.Json.Rendering
import TargetQuery.Proofs.Json.Taking

/-!
# Writing and reading jobs

What is written of a job is taken as the same job, part by part: its locations, its arguments, its
files, and at last the job itself. So both texts of a job are read back as that job.
-/

namespace TargetQuery

open Json Json.Value

/-! ### Locations and arguments -/

namespace Location

/-- The tag of a file decides how its path is kept. -/
theorem lookup_tag_of_path {l : Location} {p : Path} (h : l.path? = some p) :
    ∃ make, tagged.cases.lookup l.tag = some (pathContent make) ∧ make p = l := by
  cases l with
  | absolute q =>
    cases h
    exact ⟨.absolute, rfl, rfl⟩
  | relative q =>
    cases h
    exact ⟨.relative, rfl, rfl⟩
  | temporary q =>
    cases h
    exact ⟨.temporary, rfl, rfl⟩
  | standardInput | standardOutput => cases h

/-- The tag of a stream is all that there is of it. -/
theorem lookup_tag_of_stream {l : Location} (h : l.path? = none) :
    ∃ title, tagged.cases.lookup l.tag = some (.nothing title l) := by
  cases l with
  | absolute | relative | temporary => cases h
  | standardInput | standardOutput => exact ⟨_, rfl⟩

/-- A location is read back from its value. -/
theorem takes {l : Location} {v : Value} (h : l.toJson? = .ok v) {room : Nat} (enough : 2 ≤ room) :
    Takes (Location.read room) v.toTree l := by
  rw [toJson?_eq_ok] at h
  cases path : l.path? with
  | none =>
    rw [path] at h
    obtain ⟨title, listed⟩ := lookup_tag_of_stream path
    rw [h]
    exact Tagged.takes_tag enough listed
  | some p =>
    rw [path] at h
    obtain ⟨s, rfl, rfl⟩ := h
    obtain ⟨make, listed, rfl⟩ := lookup_tag_of_path path
    exact Tagged.takes_tag_content enough (by decide) listed
      ((takes_textValue "path string" s).map fun s => make (.ofString s))

end Location

namespace Argument

/-- An argument is read back from its value. -/
theorem takes {a : Argument} {v : Value} (h : a.toJson? = .ok v) {room : Nat} (enough : 3 ≤ room) :
    Takes (Argument.read room) v.toTree a := by
  obtain ⟨content, rfl, written⟩ := toJson?_eq_ok.mp h
  have two : 2 ≤ room := by omega
  have inner : 2 ≤ room - 1 := by omega
  cases a with
  | flag text =>
    rw [written]
    exact Tagged.takes_tag_content two (by decide) rfl ((takes_textValue "a string" text).map flag)
  | path l =>
    exact Tagged.takes_tag_content two (by decide) rfl ((Location.takes written inner).map path)
  | responseFile l =>
    exact Tagged.takes_tag_content two (by decide) rfl
      ((Location.takes written inner).map responseFile)

end Argument

/-! ### Files -/

theorem FileType.takes (f : FileType) (room : Nat) :
    Takes (FileType.read room) f.toJson.toTree f := by
  cases f
  exact takes_nameValue rfl room

theorem JobKind.takes (k : JobKind) (room : Nat) : Takes (JobKind.read room) k.toJson.toTree k := by
  cases k
  exact takes_nameValue rfl room

/-- A field that must be there is filled with what its value is taken as. -/
theorem stepsTake_required {σ α β : Type} {r : Record σ β} {room : Nat} {name : String}
    {get : σ → Option α} {set : σ → α → σ} {value : Nat → Reader α} {t : Tree} {x : α} {d d' : σ}
    {members : List (Option String × Tree)}
    (found : r.fields.find? (·.name == name) = some (required name get set value))
    (fresh : (get d).isSome = false) (takes : Takes (value room) t x)
    (more : StepsTake (r.memberStep room) (set d x) members d') :
    StepsTake (r.memberStep room) d ((some name, t) :: members) d' :=
  .cons (Record.stepTakes found fresh (takes.map (set d))) more

namespace TypedLocation

theorem takes_members {f : TypedLocation} {file : Tree} {room : Nat} (enough : 2 ≤ room)
    (takes : Takes (Location.read (room - 1)) file f.file) :
    Takes (TypedLocation.read room)
      (.object [(some "file", file), (some "file_type", f.fileType.toJson.toTree)]) f := by
  have filled : StepsTake (record.memberStep (room - 1)) record.empty
      [(some "file", file), (some "file_type", f.fileType.toJson.toTree)]
      { file := some f.file, fileType := some f.fileType } := by
    refine stepsTake_required rfl rfl takes ?_
    exact stepsTake_required rfl rfl (FileType.takes f.fileType _) (.nil _)
  exact Record.takes_read enough filled rfl

theorem takes {f : TypedLocation} {v : Value} (h : f.toJson? = .ok v) {room : Nat}
    (enough : 3 ≤ room) : Takes (TypedLocation.read room) v.toTree f := by
  obtain ⟨file, written, rfl⟩ := toJson?_eq_ok.mp h
  exact takes_members (by omega) (Location.takes written (by omega))

end TypedLocation

/-! ### Jobs -/

/-- A list is taken element by element. -/
theorem forall₂_itemTrees {α : Type} {write : α → Except WriteError Value} {read : Reader α}
    (takes : ∀ {x v}, write x = .ok v → Takes read v.toTree x) {xs : List α} {vs : List Value}
    (h : xs.mapM write = .ok vs) : List.Forall₂ (Takes read) (itemTrees vs) xs := by
  have pairs := mapM_eq_ok.mp h
  clear h
  induction pairs with
  | nil => exact .nil
  | cons here _ ih => exact .cons (takes here) ih

namespace Job

/-- The draft of a job that lacks nothing. -/
def draft (j : Job) : Draft where
  moduleName := some j.moduleName
  kind := some j.kind
  tool := some j.tool
  arguments := some j.arguments
  displayInputs := some j.displayInputs
  inputs := some j.inputs
  outputs := some j.outputs
  inPlace := some j.inPlace
  responseFiles := some j.responseFiles

theorem complete_draft (j : Job) : record.complete j.draft = .ok j := rfl

/-- A job is taken from an object of its fields, whatever stands for its parts. -/
theorem takes_members {j : Job} {tool arguments displayInputs inputs outputs : Tree} {room : Nat}
    (enough : 2 ≤ room) (takesTool : Takes (Location.read (room - 1)) tool j.tool)
    (takesArguments : Takes (listValue Argument.read (room - 1)) arguments j.arguments)
    (takesDisplay : Takes (listValue TypedLocation.read (room - 1)) displayInputs j.displayInputs)
    (takesInputs : Takes (listValue TypedLocation.read (room - 1)) inputs j.inputs)
    (takesOutputs : Takes (listValue TypedLocation.read (room - 1)) outputs j.outputs) :
    Takes (Job.read room) (.object
      [(some "module_name", .text (some j.moduleName)), (some "kind", j.kind.toJson.toTree),
       (some "tool", tool), (some "command_line", arguments),
       (some "display_inputs", displayInputs), (some "inputs", inputs), (some "outputs", outputs),
       (some "requires_in_place_execution", .bool j.inPlace),
       (some "supports_response_files", .bool j.responseFiles)]) j := by
  refine Record.takes_read (d := j.draft) enough ?_ j.complete_draft
  refine stepsTake_required rfl rfl (takes_textValue _ j.moduleName) ?_
  refine stepsTake_required rfl rfl (JobKind.takes j.kind _) ?_
  refine stepsTake_required rfl rfl takesTool ?_
  refine stepsTake_required rfl rfl takesArguments ?_
  refine stepsTake_required rfl rfl takesDisplay ?_
  refine stepsTake_required rfl rfl takesInputs ?_
  refine stepsTake_required rfl rfl takesOutputs ?_
  refine stepsTake_required rfl rfl (takes_boolValue j.inPlace) ?_
  exact stepsTake_required rfl rfl (takes_boolValue j.responseFiles) (.nil _)

/-- A job is read back from its value. -/
theorem takes {j : Job} {v : Value} (h : j.toJson? = .ok v) {room : Nat} (enough : 5 ≤ room) :
    Takes (Job.read room) v.toTree j := by
  obtain ⟨tool, arguments, displayInputs, inputs, outputs, hTool, hArguments, hDisplay, hInputs,
    hOutputs, rfl⟩ := toJson?_eq_ok.mp h
  have two : 2 ≤ room - 1 := by omega
  have three : 3 ≤ room - 1 - 1 := by omega
  have inFiles : ∀ {files : List TypedLocation} {values : List Value},
      files.mapM TypedLocation.toJson? = .ok values →
      Takes (listValue TypedLocation.read (room - 1)) (.list (itemTrees values)) files :=
    fun written => takes_listValue two
      (forall₂_itemTrees (fun h => TypedLocation.takes h three) written)
  have inArguments := takes_listValue two
    (forall₂_itemTrees (fun h => Argument.takes h three) hArguments)
  exact takes_members (by omega) (Location.takes hTool two) inArguments (inFiles hDisplay)
    (inFiles hInputs) (inFiles hOutputs)

/-- Every text of what is written of a job is read back as the job. -/
theorem ofJson?_of_document {j : Job} {v : Value} (h : j.toJson? = .ok v) {s : Bytes}
    (document : Grammar.Document v.toTree s) : ofJson? s = .ok j := by
  have run := ((takes h (by decide)).run document : (read maxDepth).run s = .ok j)
  rw [ofJson?, run]
  rfl

/-- A job can be written if and only if every path in it is text. Then both of its texts are read
back as the same job, byte for byte, and every path stands in them with just its bytes. -/
theorem json_round_trip (j : Job) :
    ((∃ v, j.toJson? = .ok v) ↔ ∀ p ∈ j.paths, p.IsText) ∧
    ∀ v, j.toJson? = .ok v →
      ofJson? (Utf8.encode v.toCompact) = .ok j ∧ ofJson? (Utf8.encode v.toPretty) = .ok j ∧
      ∀ p ∈ j.paths, p.WrittenIn v := by
  refine ⟨exists_toJson?, fun v h => ⟨?_, ?_, writtenIn h⟩⟩
  · exact ofJson?_of_document h v.document_toCompact
  · exact ofJson?_of_document h v.document_toPretty

/-- A job with arguments and locations of every kind. -/
def assorted : Job where
  moduleName := "\"a\\b\""
  kind := .printTargetInfo
  tool := .absolute ⟨[0x2F, 0xC3, 0xA9]⟩
  arguments := [.flag "-v", .path .standardInput, .responseFile (.temporary ⟨[0x74]⟩)]
  displayInputs := [⟨.standardInput, .jsonTargetInfo⟩]
  inputs := [⟨.relative ⟨[0x22]⟩, .jsonTargetInfo⟩]
  outputs := [⟨.standardOutput, .jsonTargetInfo⟩]
  inPlace := true

theorem json_round_trip_assorted :
    (∃ v, assorted.toJson? = .ok v ∧ ofJson? (Utf8.encode v.toCompact) = .ok assorted ∧
      ofJson? (Utf8.encode v.toPretty) = .ok assorted) ∧
    ¬ ∃ v, Job.toJson? { assorted with tool := .absolute ⟨[0x2F, 0xE9]⟩ } = .ok v := by
  constructor
  · obtain ⟨v, written⟩ := (json_round_trip assorted).1.mpr (by decide)
    have ⟨compact, pretty, _⟩ := (json_round_trip assorted).2 v written
    exact ⟨v, written, compact, pretty⟩
  · rw [(json_round_trip _).1]
    decide

end Job

end TargetQuery
