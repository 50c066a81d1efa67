import Mathlib.Data.List.Forall2
import TargetQuery.Job.Json
import TargetQuery.Proofs.Json.Reading
import TargetQuery.Proofs.Text.Paths

/-!
# Written jobs

A job can be written if all its paths are text, and not otherwise. Every path of a job that is
written stands in what is written as a string with just its bytes.
-/

namespace TargetQuery

open Json (Value WriteError except_bind_eq_ok except_pure_eq_ok)

section Sequences

variable {ε α β : Type}

/-- A list is written element by element. -/
theorem mapM_eq_ok {f : α → Except ε β} {as : List α} {bs : List β} :
    as.mapM f = .ok bs ↔ List.Forall₂ (fun a b => f a = .ok b) as bs := by
  induction as generalizing bs with
  | nil => rw [List.mapM_nil, except_pure_eq_ok, List.forall₂_nil_left_iff, eq_comm]
  | cons a as ih =>
    simp only [List.mapM_cons, except_bind_eq_ok, except_pure_eq_ok, ih,
      List.forall₂_cons_left_iff]
    constructor
    · rintro ⟨b, here, bs, more, rfl⟩
      exact ⟨b, bs, here, more, rfl⟩
    · rintro ⟨b, bs, here, more, rfl⟩
      exact ⟨b, here, bs, more, rfl⟩

theorem exists_mem_of_mapM_eq_ok {f : α → Except ε β} {as : List α} {bs : List β}
    (h : as.mapM f = .ok bs) {a : α} (mem : a ∈ as) : ∃ b ∈ bs, f a = .ok b := by
  have pairs := mapM_eq_ok.mp h
  clear h
  induction pairs with
  | nil => cases mem
  | @cons _ b _ bs here _ ih =>
    rcases List.mem_cons.mp mem with rfl | mem
    · exact ⟨b, List.mem_cons_self, here⟩
    · obtain ⟨b', found, written⟩ := ih mem
      exact ⟨b', List.mem_cons_of_mem _ found, written⟩

theorem exists_mapM_eq_ok {f : α → Except ε β} {as : List α} :
    (∃ bs, as.mapM f = .ok bs) ↔ ∀ a ∈ as, ∃ b, f a = .ok b := by
  simp only [mapM_eq_ok]
  induction as with
  | nil => simp
  | cons a as ih =>
    rw [List.forall_mem_cons, ← ih]
    constructor
    · rintro ⟨_, here | ⟨here, more⟩⟩
      exact ⟨⟨_, here⟩, _, more⟩
    · rintro ⟨⟨b, here⟩, bs, more⟩
      exact ⟨b :: bs, .cons here more⟩

end Sequences

namespace Json.Value

/-- A value somewhere in another one. -/
inductive Part : Value → Value → Prop
  | whole (v : Value) : Part v v
  | item {u v : Value} {items : List Value} : v ∈ items → Part u v → Part u (.list items)
  | member {u v : Value} {name : String} {members : List (String × Value)} :
      (name, v) ∈ members → Part u v → Part u (.object members)

end Json.Value

open Json.Value (Part)

/-! ### Paths and locations -/

/-- The path stands in the value as a string with its bytes. -/
def Path.WrittenIn (p : Path) (v : Value) : Prop :=
  ∃ s, Utf8.encode s = p.bytes ∧ Part (.text s) v

theorem Path.WrittenIn.item {p : Path} {v : Value} {items : List Value} (h : p.WrittenIn v)
    (mem : v ∈ items) : p.WrittenIn (.list items) := by
  obtain ⟨s, bytes, part⟩ := h
  exact ⟨s, bytes, .item mem part⟩

theorem Path.WrittenIn.member {p : Path} {v : Value} {members : List (String × Value)}
    (h : p.WrittenIn v) (name : String) (mem : (name, v) ∈ members) :
    p.WrittenIn (.object members) := by
  obtain ⟨s, bytes, part⟩ := h
  exact ⟨s, bytes, .member mem part⟩

theorem Path.toJson?_eq_ok {p : Path} {v : Value} :
    p.toJson? = .ok v ↔ ∃ s, p = .ofString s ∧ v = .text s := by
  rw [toJson?]
  cases h : Utf8.decode? p.bytes with
  | none =>
    have notText : ∀ s, p ≠ .ofString s := by
      intro s e
      rw [decode?_bytes_eq_some.mpr e] at h
      cases h
    simp [notText]
  | some s =>
    obtain rfl := decode?_bytes_eq_some.mp h
    simp [Path.ofString, Utf8.encode_injective.eq_iff, eq_comm]

namespace Location

/-- What is written of a location. -/
theorem toJson?_eq_ok {l : Location} {v : Value} :
    l.toJson? = .ok v ↔
      match l.path? with
      | some p => ∃ s, p = .ofString s ∧
          v = .object [("kind", .text l.tag), ("path", .text s)]
      | none => v = .object [("kind", .text l.tag)] := by
  rw [toJson?]
  cases l.path? with
  | none => simp [eq_comm]
  | some p =>
    simp only [except_bind_eq_ok, except_pure_eq_ok, Path.toJson?_eq_ok]
    constructor
    · rintro ⟨_, ⟨s, rfl, rfl⟩, rfl⟩
      exact ⟨s, rfl, rfl⟩
    · rintro ⟨s, rfl, rfl⟩
      exact ⟨_, ⟨s, rfl, rfl⟩, rfl⟩

theorem exists_toJson? {l : Location} : (∃ v, l.toJson? = .ok v) ↔ ∀ p ∈ l.path?, p.IsText := by
  simp only [toJson?_eq_ok]
  cases l.path? with
  | none => simp
  | some p => simp [Path.isText_iff]

theorem writtenIn {l : Location} {v : Value} (h : l.toJson? = .ok v) :
    ∀ p ∈ l.path?, p.WrittenIn v := by
  intro p mem
  rw [toJson?_eq_ok, mem] at h
  obtain ⟨s, rfl, rfl⟩ := h
  exact ⟨s, rfl, .member (List.mem_cons_of_mem _ List.mem_cons_self) (.whole _)⟩

end Location

/-! ### Arguments and files -/

namespace Argument

/-- The location that an argument names, if it is not literal text. -/
def location? : Argument → Option Location
  | .flag _ => none
  | .path l | .responseFile l => some l

/-- What is written of an argument. -/
theorem toJson?_eq_ok {a : Argument} {v : Value} :
    a.toJson? = .ok v ↔ ∃ content, v = .object [("kind", .text a.tag), ("value", content)] ∧
      match a with
      | .flag text => content = .text text
      | .path l | .responseFile l => l.toJson? = .ok content := by
  cases a with
  | flag text => simp [toJson?, except_pure_eq_ok, eq_comm (b := v)]
  | path l | responseFile l =>
    simp only [toJson?, except_bind_eq_ok, except_pure_eq_ok, eq_comm (b := v), and_comm]

theorem exists_toJson? {a : Argument} :
    (∃ v, a.toJson? = .ok v) ↔ ∀ l ∈ a.location?, ∃ v, l.toJson? = .ok v := by
  simp only [toJson?_eq_ok]
  cases a <;> simp [location?]

theorem writtenIn {a : Argument} {v : Value} (h : a.toJson? = .ok v) {l : Location}
    (names : l ∈ a.location?) : ∀ p ∈ l.path?, p.WrittenIn v := by
  obtain ⟨content, rfl, written⟩ := toJson?_eq_ok.mp h
  intro p mem
  have inside : p.WrittenIn content := by
    cases a with
    | flag text => cases names
    | path l' | responseFile l' =>
      cases names
      exact Location.writtenIn written p mem
  exact inside.member "value" (List.mem_cons_of_mem _ List.mem_cons_self)

end Argument

namespace TypedLocation

/-- What is written of a typed location. -/
theorem toJson?_eq_ok {t : TypedLocation} {v : Value} :
    t.toJson? = .ok v ↔ ∃ file, t.file.toJson? = .ok file ∧
      v = .object [("file", file), ("file_type", t.fileType.toJson)] := by
  simp only [toJson?, except_bind_eq_ok, except_pure_eq_ok, eq_comm (b := v)]

theorem exists_toJson? {t : TypedLocation} :
    (∃ v, t.toJson? = .ok v) ↔ ∃ v, t.file.toJson? = .ok v := by
  simp only [toJson?_eq_ok]
  constructor
  · rintro ⟨_, file, written, _⟩
    exact ⟨file, written⟩
  · rintro ⟨file, written⟩
    exact ⟨_, file, written, rfl⟩

theorem writtenIn {t : TypedLocation} {v : Value} (h : t.toJson? = .ok v) :
    ∀ p ∈ t.file.path?, p.WrittenIn v := by
  obtain ⟨file, written, rfl⟩ := toJson?_eq_ok.mp h
  exact fun p mem => (Location.writtenIn written p mem).member "file" List.mem_cons_self

end TypedLocation

/-! ### Jobs -/

namespace Job

/-- The locations of a job: its tool, and what its arguments, inputs and outputs name. -/
def locations (j : Job) : List Location :=
  j.tool :: j.arguments.filterMap Argument.location?
    ++ (j.displayInputs ++ j.inputs ++ j.outputs).map TypedLocation.file

def paths (j : Job) : List Path := j.locations.filterMap Location.path?

/-- What is written of a job. -/
theorem toJson?_eq_ok {j : Job} {v : Value} :
    j.toJson? = .ok v ↔ ∃ tool arguments displayInputs inputs outputs,
      j.tool.toJson? = .ok tool ∧
      j.arguments.mapM Argument.toJson? = .ok arguments ∧
      j.displayInputs.mapM TypedLocation.toJson? = .ok displayInputs ∧
      j.inputs.mapM TypedLocation.toJson? = .ok inputs ∧
      j.outputs.mapM TypedLocation.toJson? = .ok outputs ∧
      v = .object
        [("module_name", .text j.moduleName),
         ("kind", j.kind.toJson),
         ("tool", tool),
         ("command_line", .list arguments),
         ("display_inputs", .list displayInputs),
         ("inputs", .list inputs),
         ("outputs", .list outputs),
         ("requires_in_place_execution", .bool j.inPlace),
         ("supports_response_files", .bool j.responseFiles)] := by
  rw [toJson?]
  simp only [except_bind_eq_ok, except_pure_eq_ok]
  constructor
  · rintro ⟨tool, h₁, arguments, h₂, displayInputs, h₃, inputs, h₄, outputs, h₅, rfl⟩
    exact ⟨tool, arguments, displayInputs, inputs, outputs, h₁, h₂, h₃, h₄, h₅, rfl⟩
  · rintro ⟨tool, arguments, displayInputs, inputs, outputs, h₁, h₂, h₃, h₄, h₅, rfl⟩
    exact ⟨tool, h₁, arguments, h₂, displayInputs, h₃, inputs, h₄, outputs, h₅, rfl⟩

theorem forall_mem_paths {P : Path → Prop} {j : Job} :
    (∀ p ∈ j.paths, P p) ↔
      (∀ p ∈ j.tool.path?, P p) ∧
      (∀ a ∈ j.arguments, ∀ l ∈ a.location?, ∀ p ∈ l.path?, P p) ∧
      (∀ t ∈ j.displayInputs, ∀ p ∈ t.file.path?, P p) ∧
      (∀ t ∈ j.inputs, ∀ p ∈ t.file.path?, P p) ∧
      (∀ t ∈ j.outputs, ∀ p ∈ t.file.path?, P p) := by
  simp only [paths, locations, List.forall_mem_filterMap, List.forall_mem_append,
    List.forall_mem_cons, List.forall_mem_map, Option.mem_def, and_assoc]

/-- A job can be written if and only if all its paths are text. -/
theorem exists_toJson? {j : Job} : (∃ v, j.toJson? = .ok v) ↔ ∀ p ∈ j.paths, p.IsText := by
  have parts : (∃ v, j.toJson? = .ok v) ↔
      (∃ tool, j.tool.toJson? = .ok tool) ∧
      (∃ arguments, j.arguments.mapM Argument.toJson? = .ok arguments) ∧
      (∃ displayInputs, j.displayInputs.mapM TypedLocation.toJson? = .ok displayInputs) ∧
      (∃ inputs, j.inputs.mapM TypedLocation.toJson? = .ok inputs) ∧
      (∃ outputs, j.outputs.mapM TypedLocation.toJson? = .ok outputs) := by
    simp only [toJson?_eq_ok]
    constructor
    · rintro ⟨_, _, _, _, _, _, tool, arguments, displayInputs, inputs, outputs, _⟩
      exact ⟨⟨_, tool⟩, ⟨_, arguments⟩, ⟨_, displayInputs⟩, ⟨_, inputs⟩, ⟨_, outputs⟩⟩
    · rintro ⟨⟨_, tool⟩, ⟨_, arguments⟩, ⟨_, displayInputs⟩, ⟨_, inputs⟩, ⟨_, outputs⟩⟩
      exact ⟨_, _, _, _, _, _, tool, arguments, displayInputs, inputs, outputs, rfl⟩
  rw [parts, forall_mem_paths]
  simp only [exists_mapM_eq_ok, Argument.exists_toJson?, TypedLocation.exists_toJson?,
    Location.exists_toJson?]

/-- No path of a job that is written is written otherwise than byte for byte. -/
theorem writtenIn {j : Job} {v : Value} (h : j.toJson? = .ok v) :
    ∀ p ∈ j.paths, p.WrittenIn v := by
  obtain ⟨tool, arguments, displayInputs, inputs, outputs, hTool, hArguments, hDisplay, hInputs,
    hOutputs, rfl⟩ := toJson?_eq_ok.mp h
  have inFiles : ∀ {files : List TypedLocation} {values : List Value},
      files.mapM TypedLocation.toJson? = .ok values →
      ∀ t ∈ files, ∀ p ∈ t.file.path?, p.WrittenIn (.list values) := by
    intro files values written t mem p file
    obtain ⟨value, found, written⟩ := exists_mem_of_mapM_eq_ok written mem
    exact (TypedLocation.writtenIn written p file).item found
  rw [forall_mem_paths]
  refine ⟨fun p mem => ?_, fun a mem l names p path => ?_, fun t mem p file => ?_,
    fun t mem p file => ?_, fun t mem p file => ?_⟩
  · exact (Location.writtenIn hTool p mem).member "tool" (by simp)
  · obtain ⟨value, found, written⟩ := exists_mem_of_mapM_eq_ok hArguments mem
    have inside := (Argument.writtenIn written names p path).item found
    exact inside.member "command_line" (by simp)
  · exact (inFiles hDisplay t mem p file).member "display_inputs" (by simp)
  · exact (inFiles hInputs t mem p file).member "inputs" (by simp)
  · exact (inFiles hOutputs t mem p file).member "outputs" (by simp)

end Job

end TargetQuery
