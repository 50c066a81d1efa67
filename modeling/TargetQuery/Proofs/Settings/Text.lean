import TargetQuery.Proofs.Text.Paths
import TargetQuery.Proofs.Toml.Table
import TargetQuery.Settings.Store

/-!
# Settings and their text

Settings have a text if all their paths are UTF-8, and the text is read as the same settings.
-/

namespace TargetQuery

namespace Settings

def paths (s : Settings) : List Path :=
  s.frontend.toList ++ s.sdk.toList ++ s.resourceDir.toList

def ofTexts (frontend sdk resourceDir target targetVariant : Option String) : Settings where
  frontend := frontend.map Path.ofString
  sdk := sdk.map Path.ofString
  resourceDir := resourceDir.map Path.ofString
  target := target.map Triple.mk
  targetVariant := targetVariant.map Triple.mk

theorem mapM_pathText_eq_some {p : Option Path} {text : Option String} :
    p.mapM pathText = some text ↔ p = text.map Path.ofString := by
  cases p with
  | none => cases text <;> simp
  | some p =>
    cases text with
    | none => simp [pathText]
    | some text => simp [pathText, Path.decode?_bytes_eq_some]

/-! ### Reading entries -/

def entriesOf (given : List (Field × Option String)) : List (String × String) :=
  given.filterMap fun f => f.2.map fun text => (f.1.name, text)

theorem readMember_field {f : Field} (hf : f ∈ fields) (s : Settings) (text : String) :
    readMember s (f.name, .text text) = .ok (f.set s text) := by
  have known : fields.find? (·.name == f.name) = some f := by
    simp only [fields, List.mem_cons, List.not_mem_nil, or_false] at hf
    obtain rfl | rfl | rfl | rfl | rfl := hf <;> rfl
  rw [readMember, known]
  rfl

/-- The entries set what is given, field by field. -/
theorem foldlM_entriesOf {given : List (Field × Option String)} (known : ∀ f ∈ given, f.1 ∈ fields)
    (s : Settings) :
    ((entriesOf given).map fun e => (e.1, Toml.Value.text e.2)).foldlM readMember s
      = .ok (given.foldl (fun s f => f.2.elim s (f.1.set s)) s) := by
  induction given generalizing s with
  | nil => rfl
  | cons f given ih =>
    rw [List.forall_mem_cons] at known
    obtain ⟨field, text⟩ := f
    cases text with
    | none => exact ih known.2 s
    | some text =>
      have entries : entriesOf ((field, some text) :: given)
        = (field.name, text) :: entriesOf given := rfl
      rw [entries, List.map_cons, List.foldlM_cons, readMember_field known.1]
      exact ih known.2 (field.set s text)

theorem foldl_fields (a b c d e : Option String) :
    (fields.zip [a, b, c, d, e]).foldl (fun s f => f.2.elim s (f.1.set s)) {}
      = ofTexts a b c d e := by
  cases a <;> cases b <;> cases c <;> cases d <;> cases e <;> rfl

/-- The settings that have entries are those that texts give. -/
theorem entries?_eq_some {s : Settings} {entries : List (String × String)} :
    s.entries? = some entries ↔ ∃ a b c d e, s = ofTexts a b c d e ∧
      entriesOf (fields.zip [a, b, c, d, e]) = entries := by
  have triple : ∀ t : Option Triple, (t.map Triple.text).map Triple.mk = t := by
    intro t
    cases t <;> rfl
  have texts : ∀ t : Option String, (t.map Triple.mk).map Triple.text = t := by
    intro t
    cases t <;> rfl
  simp only [entries?, bind, Option.bind_eq_some_iff, mapM_pathText_eq_some]
  constructor
  · rintro ⟨a, frontend, b, sdk, c, resourceDir, h⟩
    refine ⟨a, b, c, s.target.map Triple.text, s.targetVariant.map Triple.text, ?_,
      Option.some.inj h⟩
    obtain ⟨⟩ := s
    subst frontend sdk resourceDir
    simp only [ofTexts, triple]
  · rintro ⟨a, b, c, d, e, rfl, rfl⟩
    refine ⟨a, rfl, b, rfl, c, rfl, ?_⟩
    simp only [ofTexts, texts]
    rfl

theorem exists_text_iff {p : Option Path} :
    (∃ text : Option String, p = text.map Path.ofString) ↔ ∀ q ∈ p.toList, q.IsText := by
  cases p with
  | none => exact iff_of_true ⟨none, rfl⟩ (by simp)
  | some p =>
    rw [Option.toList_some, List.forall_mem_singleton, Path.isText_iff]
    constructor
    · rintro ⟨text, h⟩
      cases text with
      | none => cases h
      | some text => exact ⟨text, Option.some.inj h⟩
    · rintro ⟨text, rfl⟩
      exact ⟨some text, rfl⟩

theorem entries?_isSome_iff {s : Settings} :
    s.entries?.isSome = true ↔ ∀ p ∈ s.paths, p.IsText := by
  simp only [paths, List.forall_mem_append, ← exists_text_iff, Option.isSome_iff_exists,
    entries?_eq_some]
  constructor
  · rintro ⟨_, a, b, c, d, e, rfl, rfl⟩
    exact ⟨⟨⟨a, rfl⟩, ⟨b, rfl⟩⟩, ⟨c, rfl⟩⟩
  · rintro ⟨⟨⟨a, ha⟩, ⟨b, hb⟩⟩, ⟨c, hc⟩⟩
    refine ⟨_, a, b, c, s.target.map Triple.text, s.targetVariant.map Triple.text, ?_, rfl⟩
    obtain ⟨frontend, sdk, resourceDir, target, targetVariant⟩ := s
    subst ha hb hc
    cases target <;> cases targetVariant <;> rfl

theorem toToml?_isSome_iff {s : Settings} :
    s.toToml?.isSome = true ↔ ∀ p ∈ s.paths, p.IsText := by
  rw [← entries?_isSome_iff, toToml?]
  cases s.entries? <;> rfl

theorem isBareKey_of_mem_fields {f : Field} (hf : f ∈ fields) : Toml.IsBareKey f.name := by
  simp only [fields, List.mem_cons, List.not_mem_nil, or_false] at hf
  obtain rfl | rfl | rfl | rfl | rfl := hf <;>
    exact Toml.isBareKey_of_all (by decide) (by decide)

theorem entriesOf_names (given : List (Field × Option String)) :
    ((entriesOf given).map (·.1)).Sublist (given.map (·.1.name)) := by
  induction given with
  | nil => exact .slnil
  | cons f given ih =>
    obtain ⟨field, text⟩ := f
    cases text with
    | none => exact ih.cons field.name
    | some text => exact ih.cons_cons field.name

/-- What is written for settings is read as these settings. -/
theorem parse_toToml? {s : Settings} {text : String} (written : s.toToml? = some text)
    (path : Path) : parse path text = .ok s := by
  obtain ⟨entries, given, rfl⟩ : ∃ entries, s.entries? = some entries ∧
      String.ofList (Toml.table tableName entries) = text := by
    rw [toToml?] at written
    obtain ⟨entries, given, written⟩ := Option.bind_eq_some_iff.mp written
    exact ⟨entries, given, Option.some.inj written⟩
  obtain ⟨a, b, c, d, e, rfl, rfl⟩ := entries?_eq_some.mp given
  have known : ∀ f ∈ fields.zip [a, b, c, d, e], f.1 ∈ fields := fun f hf =>
    (List.of_mem_zip hf).1
  have isKey : ∀ m ∈ entriesOf (fields.zip [a, b, c, d, e]), Toml.IsBareKey m.1 := by
    intro m hm
    obtain ⟨f, hf, hm⟩ := List.mem_filterMap.mp hm
    obtain ⟨text, -, rfl⟩ := Option.map_eq_some_iff.mp hm
    exact isBareKey_of_mem_fields (known f hf)
  have distinct : ((entriesOf (fields.zip [a, b, c, d, e])).map (·.1)).Nodup :=
    (entriesOf_names _).nodup (show (fields.map (·.name)).Nodup by decide)
  have tableKey : Toml.IsBareKey tableName := Toml.isBareKey_of_all (by decide) (by decide)
  rw [parse, Toml.document?_table tableKey isKey distinct]
  have read : ofDocument [(tableName, .table .header
      ((entriesOf (fields.zip [a, b, c, d, e])).map fun m => (m.1, .text m.2)))]
      = .ok (ofTexts a b c d e) := by
    rw [← foldl_fields]
    exact foldlM_entriesOf known {}
  simp only [read]
  rfl

end Settings

end TargetQuery
