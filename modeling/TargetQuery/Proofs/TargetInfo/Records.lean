import TargetQuery.Proofs.Json.RecordReading
import TargetQuery.Proofs.TargetInfo.Schema

/-!
# The readers of target information

The readers of the three records decide by the schema: what they fill their drafts with, member by
member, comes to the same as looking the members up.
-/

namespace TargetQuery

open Json Grammar

theorem Triple.exact_read : Exact Triple.read Triple.ofTree? fun _ => True :=
  (exact_textValue "a string").map Triple.mk

theorem Triple.sound_read : Sound Triple.read Triple.ofTree? :=
  (sound_textValue "a string").map Triple.mk

namespace Target

def fill : FieldMeaning Draft := fun name d t =>
  if name = "triple" then (fun x => { d with triple := some x }) <$> Triple.ofTree? t
  else if name = "unversionedTriple" then
    (fun x => { d with unversionedTriple := some x }) <$> Triple.ofTree? t
  else if name = "moduleTriple" then
    (fun x => { d with moduleTriple := some x }) <$> Triple.ofTree? t
  else if name = "librariesRequireRPath" then
    (fun x => { d with librariesRequireRPath := some x }) <$> t.bool?
  else none

theorem memberMeaning_eq (d : Draft) (name : String) (t : Tree) :
    record.memberMeaning fill d name t =
      if name = "triple" then
        if d.triple.isSome then none
        else (fun x => { d with triple := some x }) <$> Triple.ofTree? t
      else if name = "unversionedTriple" then
        if d.unversionedTriple.isSome then none
        else (fun x => { d with unversionedTriple := some x }) <$> Triple.ofTree? t
      else if name = "moduleTriple" then
        if d.moduleTriple.isSome then none
        else (fun x => { d with moduleTriple := some x }) <$> Triple.ofTree? t
      else if name = "librariesRequireRPath" then
        if d.librariesRequireRPath.isSome then none
        else (fun x => { d with librariesRequireRPath := some x }) <$> t.bool?
      else some d := by
  by_cases h1 : name = "triple"
  · subst h1
    rfl
  by_cases h2 : name = "unversionedTriple"
  · subst h2
    rfl
  by_cases h3 : name = "moduleTriple"
  · subst h3
    rfl
  by_cases h4 : name = "librariesRequireRPath"
  · subst h4
    rfl
  · have other : ∀ key, name ≠ key → (key == name) = false := fun key h => by simpa using h.symm
    simp [Record.memberMeaning, record, required, h1, h2, h3, h4, other _ h1, other _ h2,
      other _ h3, other _ h4]

/-- The draft behind the members of an object. -/
theorem foldTree_eq (d : Draft) (members : MemberList) :
    foldTree (record.memberMeaning fill) d members = (do
      let triple ← members.pick "triple" Triple.ofTree? d.triple
      let unversionedTriple ← members.pick "unversionedTriple" Triple.ofTree? d.unversionedTriple
      let moduleTriple ← members.pick "moduleTriple" Triple.ofTree? d.moduleTriple
      let librariesRequireRPath ←
        members.pick "librariesRequireRPath" Tree.bool? d.librariesRequireRPath
      pure { triple, unversionedTriple, moduleTriple, librariesRequireRPath }) := by
  induction members generalizing d with
  | nil => rfl
  | cons m members ih =>
    obtain ⟨key, t⟩ := m
    cases key with
    | none => rfl
    | some name =>
      rw [foldTree_cons, memberMeaning_eq]
      split
      · next h =>
        subst h
        simp (disch := decide) only [MemberList.pick_same, MemberList.pick_other]
        cases d.triple <;> cases Triple.ofTree? t <;> simp [ih]
      split
      · next h =>
        subst h
        simp (disch := decide) only [MemberList.pick_same, MemberList.pick_other]
        cases d.unversionedTriple <;> cases Triple.ofTree? t <;> simp [ih]
      split
      · next h =>
        subst h
        simp (disch := decide) only [MemberList.pick_same, MemberList.pick_other]
        cases d.moduleTriple <;> cases Triple.ofTree? t <;> simp [ih]
      split
      · next h =>
        subst h
        simp (disch := decide) only [MemberList.pick_same, MemberList.pick_other]
        cases d.librariesRequireRPath <;> cases t.bool? <;> simp [ih]
      · next h1 h2 h3 h4 =>
        simp [MemberList.pick_other h1, MemberList.pick_other h2, MemberList.pick_other h3,
          MemberList.pick_other h4, ih]

/-- The target of a draft has what the draft has, if nothing is missing. -/
theorem complete?_eq (d : Draft) : record.complete? d = (do
    pure { triple := ← d.triple, unversionedTriple := ← d.unversionedTriple,
           moduleTriple := ← d.moduleTriple,
           librariesRequireRPath := ← d.librariesRequireRPath }) := by
  obtain ⟨a, b, c, d⟩ := d
  cases a <;> cases b <;> cases c <;> cases d <;> rfl

theorem listMeaning_eq (items : List Tree) :
    (Record.listMeaning fill record.fields record.empty items >>= record.complete?)
      = ofTree? (.list items) := by
  match items with
  | [] => rfl
  | [a] | [a, b] | [a, b, c] | a :: b :: c :: d :: _ :: _ =>
    simp [Record.listMeaning, record, required, fill, ofTree?]
  | [a, b, c, d] =>
    simp only [Record.listMeaning, record, required, fill, ofTree?]
    cases Triple.ofTree? a <;> cases Triple.ofTree? b <;> cases Triple.ofTree? c <;>
      cases d.bool? <;> rfl

/-- The reader of the record and the schema agree on what a tree means. -/
theorem record_ofTree? (t : Tree) : record.ofTree? fill t = ofTree? t := by
  cases t with
  | object members =>
    have empty : record.empty = {} := rfl
    rw [ofTree?, ofMembers?, guard_bind]
    simp only [Record.ofTree?, foldTree_eq, MemberList.once?_eq, empty, MemberList.pick_none]
    cases MemberList.named members with
    | false => rfl
    | true =>
      cases MemberList.atMostOnce? members "triple" Triple.ofTree? <;>
        cases MemberList.atMostOnce? members "unversionedTriple" Triple.ofTree? <;>
        cases MemberList.atMostOnce? members "moduleTriple" Triple.ofTree? <;>
        cases MemberList.atMostOnce? members "librariesRequireRPath" Tree.bool? <;>
        simp [complete?_eq]
  | list items => exact listMeaning_eq items
  | _ => rfl

/-- A target is read exactly, unless it is written as a list. -/
theorem exact_read {room : Nat} (enough : 2 ≤ room) :
    Exact (record.read room) ofTree? Tree.NotList := by
  have exact : ∀ field ∈ record.fields, ∀ d,
      Exact (field.read (room - 1) d) (fill field.name d) fun _ => True := by
    intro field member d
    have triple := Triple.exact_read
    simp only [record, List.mem_cons, List.not_mem_nil, or_false] at member
    rcases member with rfl | rfl | rfl | rfl
    · exact triple.map _
    · exact triple.map _
    · exact triple.map _
    · exact exact_boolValue.map _
  have h : Exact (record.read room) (record.ofTree? fill) (record.Keyed fun _ _ => True) :=
    Record.exact_read enough exact
  rw [show record.ofTree? fill = ofTree? from funext record_ofTree?] at h
  refine h.mono fun t notList => ?_
  cases t with
  | list items => exact absurd rfl (notList items)
  | object members => exact fun _ _ _ _ _ _ => trivial
  | _ => exact trivial

theorem sound_read (room : Nat) : Sound (record.read room) ofTree? := by
  have sound : ∀ field ∈ record.fields, ∀ room d,
      Sound (field.read room d) (fill field.name d) := by
    intro field member room d
    have triple := Triple.sound_read
    simp only [record, List.mem_cons, List.not_mem_nil, or_false] at member
    rcases member with rfl | rfl | rfl | rfl
    · exact triple.map _
    · exact triple.map _
    · exact triple.map _
    · exact sound_boolValue.map _
  have h := Record.sound_read sound room
  rwa [show record.ofTree? fill = ofTree? from funext record_ofTree?] at h

end Target

namespace RuntimePaths

def fill : FieldMeaning Draft := fun name d t =>
  if name = "runtimeLibraryPaths" then (fun x => { d with libraries := some x }) <$> texts? t
  else if name = "runtimeLibraryImportPaths" then
    (fun x => { d with imports := some x }) <$> texts? t
  else if name = "runtimeResourcePath" then
    (fun x => { d with resource := some x }) <$> t.text?
  else none

theorem memberMeaning_eq (d : Draft) (name : String) (t : Tree) :
    record.memberMeaning fill d name t =
      if name = "runtimeLibraryPaths" then
        if d.libraries.isSome then none
        else (fun x => { d with libraries := some x }) <$> texts? t
      else if name = "runtimeLibraryImportPaths" then
        if d.imports.isSome then none
        else (fun x => { d with imports := some x }) <$> texts? t
      else if name = "runtimeResourcePath" then
        if d.resource.isSome then none
        else (fun x => { d with resource := some x }) <$> t.text?
      else some d := by
  by_cases h1 : name = "runtimeLibraryPaths"
  · subst h1
    rfl
  by_cases h2 : name = "runtimeLibraryImportPaths"
  · subst h2
    rfl
  by_cases h3 : name = "runtimeResourcePath"
  · subst h3
    rfl
  · have other : ∀ key, name ≠ key → (key == name) = false := fun key h => by simpa using h.symm
    simp [Record.memberMeaning, record, required, h1, h2, h3, other _ h1, other _ h2, other _ h3]

/-- The draft behind the members of an object. -/
theorem foldTree_eq (d : Draft) (members : MemberList) :
    foldTree (record.memberMeaning fill) d members = (do
      let libraries ← members.pick "runtimeLibraryPaths" texts? d.libraries
      let imports ← members.pick "runtimeLibraryImportPaths" texts? d.imports
      let resource ← members.pick "runtimeResourcePath" Tree.text? d.resource
      pure { libraries, imports, resource }) := by
  induction members generalizing d with
  | nil => rfl
  | cons m members ih =>
    obtain ⟨key, t⟩ := m
    cases key with
    | none => rfl
    | some name =>
      rw [foldTree_cons, memberMeaning_eq]
      split
      · next h =>
        subst h
        simp (disch := decide) only [MemberList.pick_same, MemberList.pick_other]
        cases d.libraries <;> cases texts? t <;> simp [ih]
      split
      · next h =>
        subst h
        simp (disch := decide) only [MemberList.pick_same, MemberList.pick_other]
        cases d.imports <;> cases texts? t <;> simp [ih]
      split
      · next h =>
        subst h
        simp (disch := decide) only [MemberList.pick_same, MemberList.pick_other]
        cases d.resource <;> cases t.text? <;> simp [ih]
      · next h1 h2 h3 =>
        simp [MemberList.pick_other h1, MemberList.pick_other h2, MemberList.pick_other h3, ih]

theorem complete?_eq (d : Draft) : record.complete? d = (do
    pure { libraries := ← d.libraries, imports := ← d.imports, resource := ← d.resource }) := by
  obtain ⟨a, b, c⟩ := d
  cases a <;> cases b <;> cases c <;> rfl

theorem listMeaning_eq (items : List Tree) :
    (Record.listMeaning fill record.fields record.empty items >>= record.complete?)
      = ofTree? (.list items) := by
  match items with
  | [] => rfl
  | [a] | [a, b] | a :: b :: c :: _ :: _ =>
    simp [Record.listMeaning, record, required, fill, ofTree?]
  | [a, b, c] =>
    simp only [Record.listMeaning, record, required, fill, ofTree?]
    cases texts? a <;> cases texts? b <;> cases c.text? <;> rfl

theorem record_ofTree? (t : Tree) : record.ofTree? fill t = ofTree? t := by
  cases t with
  | object members =>
    have empty : record.empty = {} := rfl
    rw [ofTree?, ofMembers?, guard_bind]
    simp only [Record.ofTree?, foldTree_eq, MemberList.once?_eq, empty, MemberList.pick_none]
    cases MemberList.named members with
    | false => rfl
    | true =>
      cases MemberList.atMostOnce? members "runtimeLibraryPaths" texts? <;>
        cases MemberList.atMostOnce? members "runtimeLibraryImportPaths" texts? <;>
        cases MemberList.atMostOnce? members "runtimeResourcePath" Tree.text? <;>
        simp [complete?_eq]
  | list items => exact listMeaning_eq items
  | _ => rfl

theorem exact_textList {room : Nat} (enough : 2 ≤ room) :
    Exact (textList room) texts? fun _ => True :=
  exact_listValue enough (exact_textValue "a string")

theorem sound_textList (room : Nat) : Sound (textList room) texts? :=
  sound_listValue (sound_textValue "a string")

/-- Paths are read exactly, unless they are written as a list. -/
theorem exact_read {room : Nat} (enough : 3 ≤ room) :
    Exact (record.read room) ofTree? Tree.NotList := by
  have exact : ∀ field ∈ record.fields, ∀ d,
      Exact (field.read (room - 1) d) (fill field.name d) fun _ => True := by
    intro field member d
    have texts : Exact (textList (room - 1)) texts? fun _ => True := exact_textList (by omega)
    simp only [record, List.mem_cons, List.not_mem_nil, or_false] at member
    rcases member with rfl | rfl | rfl
    · exact texts.map _
    · exact texts.map _
    · exact (exact_textValue "a string").map _
  have h : Exact (record.read room) (record.ofTree? fill) (record.Keyed fun _ _ => True) :=
    Record.exact_read (by omega) exact
  rw [show record.ofTree? fill = ofTree? from funext record_ofTree?] at h
  refine h.mono fun t notList => ?_
  cases t with
  | list items => exact absurd rfl (notList items)
  | object members => exact fun _ _ _ _ _ _ => trivial
  | _ => exact trivial

theorem sound_read (room : Nat) : Sound (record.read room) ofTree? := by
  have sound : ∀ field ∈ record.fields, ∀ room d,
      Sound (field.read room d) (fill field.name d) := by
    intro field member room d
    simp only [record, List.mem_cons, List.not_mem_nil, or_false] at member
    rcases member with rfl | rfl | rfl
    · exact (sound_textList room).map _
    · exact (sound_textList room).map _
    · exact (sound_textValue "a string").map _
  have h := Record.sound_read sound room
  rwa [show record.ofTree? fill = ofTree? from funext record_ofTree?] at h

end RuntimePaths

namespace TargetInfo

/-- What a value means to the draft of an answer. -/
def fill : FieldMeaning Draft := fun name d t =>
  if name = "target" then (fun x => { d with target := some x }) <$> Target.ofTree? t
  else if name = "targetVariant" then
    (fun x => { d with variant := some x }) <$> t.nullable? Target.ofTree?
  else if name = "paths" then
    (fun x => { d with paths := some x }) <$> t.nullable? RuntimePaths.ofTree?
  else none

theorem memberMeaning_eq (d : Draft) (name : String) (t : Tree) :
    record.memberMeaning fill d name t =
      if name = "target" then
        if d.target.isSome then none
        else (fun x => { d with target := some x }) <$> Target.ofTree? t
      else if name = "targetVariant" then
        if d.variant.isSome then none
        else (fun x => { d with variant := some x }) <$> t.nullable? Target.ofTree?
      else if name = "paths" then
        if d.paths.isSome then none
        else (fun x => { d with paths := some x }) <$> t.nullable? RuntimePaths.ofTree?
      else some d := by
  by_cases h1 : name = "target"
  · subst h1
    rfl
  by_cases h2 : name = "targetVariant"
  · subst h2
    rfl
  by_cases h3 : name = "paths"
  · subst h3
    rfl
  · have other : ∀ key, name ≠ key → (key == name) = false := fun key h => by simpa using h.symm
    simp [Record.memberMeaning, record, required, optionalField, h1, h2, h3, other _ h1,
      other _ h2, other _ h3]

/-- The draft behind the members of an object. -/
theorem foldTree_eq (d : Draft) (members : MemberList) :
    foldTree (record.memberMeaning fill) d members = (do
      let target ← members.pick "target" Target.ofTree? d.target
      let variant ← members.pick "targetVariant" (fun t => t.nullable? Target.ofTree?) d.variant
      let paths ← members.pick "paths" (fun t => t.nullable? RuntimePaths.ofTree?) d.paths
      pure { target, variant, paths }) := by
  induction members generalizing d with
  | nil => rfl
  | cons m members ih =>
    obtain ⟨key, t⟩ := m
    cases key with
    | none => rfl
    | some name =>
      rw [foldTree_cons, memberMeaning_eq]
      split
      · next h =>
        subst h
        simp (disch := decide) only [MemberList.pick_same, MemberList.pick_other]
        cases d.target <;> cases Target.ofTree? t <;> simp [ih]
      split
      · next h =>
        subst h
        simp (disch := decide) only [MemberList.pick_same, MemberList.pick_other]
        cases d.variant <;> cases t.nullable? Target.ofTree? <;> simp [ih]
      split
      · next h =>
        subst h
        simp (disch := decide) only [MemberList.pick_same, MemberList.pick_other]
        cases d.paths <;> cases t.nullable? RuntimePaths.ofTree? <;> simp [ih]
      · next h1 h2 h3 =>
        simp [MemberList.pick_other h1, MemberList.pick_other h2, MemberList.pick_other h3, ih]

theorem complete?_eq (d : Draft) : record.complete? d = (do
    pure { target := ← d.target, variant := d.variant.join, paths := d.paths.join }) := by
  obtain ⟨a, b, c⟩ := d
  cases a <;> rfl

theorem listMeaning_eq (items : List Tree) :
    (Record.listMeaning fill record.fields record.empty items >>= record.complete?)
      = ofTree? (.list items) := by
  match items with
  | [] => rfl
  | a :: b :: c :: _ :: _ =>
    simp [Record.listMeaning, record, required, optionalField, fill, ofTree?]
  | [a] =>
    simp only [Record.listMeaning, record, required, optionalField, fill, ofTree?]
    cases Target.ofTree? a <;> rfl
  | [a, b] =>
    simp only [Record.listMeaning, record, required, optionalField, fill, ofTree?]
    cases Target.ofTree? a <;> cases b.nullable? Target.ofTree? <;> rfl
  | [a, b, c] =>
    simp only [Record.listMeaning, record, required, optionalField, fill, ofTree?]
    cases Target.ofTree? a <;> cases b.nullable? Target.ofTree? <;>
      cases c.nullable? RuntimePaths.ofTree? <;> rfl

theorem record_ofTree? (t : Tree) : record.ofTree? fill t = ofTree? t := by
  cases t with
  | object members =>
    have empty : record.empty = {} := rfl
    rw [ofTree?, ofMembers?, guard_bind]
    simp only [Record.ofTree?, foldTree_eq, MemberList.once?_eq, empty, MemberList.pick_none]
    cases MemberList.named members with
    | false => rfl
    | true =>
      cases MemberList.atMostOnce? members "target" Target.ofTree? <;>
        cases MemberList.atMostOnce? members "targetVariant" (·.nullable? Target.ofTree?) <;>
        cases MemberList.atMostOnce? members "paths" (·.nullable? RuntimePaths.ofTree?) <;>
        simp [complete?_eq]
  | list items => exact listMeaning_eq items
  | _ => rfl

/-- Target information is read exactly as long as it is written in objects. -/
theorem exact_read {room : Nat} (enough : 4 ≤ room) :
    Exact (record.read room) ofTree? ObjectsOnly := by
  have exact : ∀ field ∈ record.fields, ∀ d,
      Exact (field.read (room - 1) d) (fill field.name d) Tree.NotList := by
    intro field member d
    have target : Exact (Target.record.read (room - 1)) Target.ofTree? Tree.NotList :=
      Target.exact_read (by omega)
    have paths : Exact (RuntimePaths.record.read (room - 1)) RuntimePaths.ofTree? Tree.NotList :=
      RuntimePaths.exact_read (by omega)
    simp only [record, List.mem_cons, List.not_mem_nil, or_false] at member
    rcases member with rfl | rfl | rfl
    · exact target.map _
    · exact ((exact_nullable target).mono fun _ => .inr).map _
    · exact ((exact_nullable paths).mono fun _ => .inr).map _
  have h : Exact (record.read room) (record.ofTree? fill) (record.Keyed fun _ => Tree.NotList) :=
    Record.exact_read (by omega) exact
  rw [show record.ofTree? fill = ofTree? from funext record_ofTree?] at h
  refine h.mono fun t objects => ?_
  cases t with
  | list items => exact absurd rfl (objects.1 items)
  | object members =>
    intro name value h field member same
    refine objects.2 members rfl name ?_ value (MemberList.mem_under h)
    simp only [record, List.mem_cons, List.not_mem_nil, or_false] at member
    rcases member with rfl | rfl | rfl <;> subst same <;> decide
  | _ => exact trivial

theorem sound_read (room : Nat) : Sound (record.read room) ofTree? := by
  have sound : ∀ field ∈ record.fields, ∀ room d,
      Sound (field.read room d) (fill field.name d) := by
    intro field member room d
    simp only [record, List.mem_cons, List.not_mem_nil, or_false] at member
    rcases member with rfl | rfl | rfl
    · exact (Target.sound_read room).map _
    · exact (sound_nullable (Target.sound_read room)).map _
    · exact (sound_nullable (RuntimePaths.sound_read room)).map _
  have h := Record.sound_read sound room
  rwa [show record.ofTree? fill = ofTree? from funext record_ofTree?] at h

/-! ### Whole texts -/

theorem decode_of_run {s : Bytes} {i : TargetInfo}
    (h : (record.read maxDepth).run s = .ok i) : decode s = .ok i := by
  rw [decode, h]
  rfl

theorem run_of_decode {s : Bytes} {i : TargetInfo} (h : decode s = .ok i) :
    (record.read maxDepth).run s = .ok i := by
  rw [decode] at h
  cases hr : (record.read maxDepth).run s with
  | ok x =>
    rw [hr] at h
    rw [Except.ok.inj h]
  | error e =>
    rw [hr] at h
    cases h

/-- The record in the tree is read. -/
theorem decode_eq_ok {t : Tree} {s : Bytes} {i : TargetInfo} (written : Document t s)
    (legible : t.Legible) (objects : ObjectsOnly t) (meant : ofTree? t = some i) :
    decode s = .ok i := by
  obtain ⟨before, value, after⟩ := written
  have exact := exact_read (by decide : 4 ≤ maxDepth) t s _ _ legible objects before value
    (after.delimited delimited_nil)
  rw [meant] at exact
  exact decode_of_run (run_of_reads exact after)

theorem decode_eq_wrongShape {t : Tree} {s : Bytes} (written : Document t s)
    (legible : t.Legible) (objects : ObjectsOnly t) (meant : ofTree? t = none) :
    ∃ p, decode s = .error (.wrongShape p) := by
  obtain ⟨before, value, after⟩ := written
  have exact := exact_read (by decide : 4 ≤ maxDepth) t s _ _ legible objects before value
    (after.delimited delimited_nil)
  rw [meant] at exact
  obtain ⟨m, k, run⟩ := run_of_refuses exact
  refine ⟨Error.locate ⟨.mismatch m, k⟩ s, ?_⟩
  rw [decode, run]
  rfl

end TargetInfo

end TargetQuery
