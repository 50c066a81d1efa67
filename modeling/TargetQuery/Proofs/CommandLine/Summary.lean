import TargetQuery.CommandLine.Run
import TargetQuery.Proofs.Diagnostic.Rendering

/-!
# The summary of target information

A summary has a line for every detail: the target, then the variant and the paths behind a blank
line each, if there are any. The lines say all that there is to say, so two answers with the same
lines are the same.
-/

namespace TargetQuery

/-- The part of a triple in front of its first dash, or the whole triple if it has none. -/
def Triple.Begins (t : Triple) (front : String) : Prop :=
  '-' ∉ front.toList ∧ (t.text = front ∨ ∃ rest, t.text = front ++ "-" ++ rest)

theorem Triple.Begins.eq_arch {t : Triple} {front : String} (begins : t.Begins front) :
    front = t.arch := by
  obtain ⟨whole, text⟩ := begins
  have taken : ∀ rest, (front.toList ++ rest).takeWhile (· != '-')
      = front.toList ++ rest.takeWhile (· != '-') := fun rest =>
    List.takeWhile_append_of_pos fun c mem => bne_iff_ne.mpr (ne_of_mem_of_not_mem mem whole)
  rw [Triple.arch, ← String.toList_inj, String.toList_ofList]
  obtain text | ⟨rest, text⟩ := text
  · have all := taken []
    rw [List.append_nil, List.takeWhile_nil, List.append_nil] at all
    rw [text, all]
  · rw [text, String.toList_append, String.toList_append, List.append_assoc, taken]
    simp

/-- The architecture is the part of the triple in front of its first dash. -/
theorem Triple.begins_arch (t : Triple) : t.Begins t.arch := by
  have split := List.takeWhile_append_dropWhile (p := (· != '-')) (l := t.text.toList)
  refine ⟨fun mem => ?_, ?_⟩
  · rw [Triple.arch, String.toList_ofList] at mem
    simpa using List.all_eq_true.mp List.all_takeWhile _ mem
  cases behind : t.text.toList.dropWhile (· != '-') with
  | nil =>
    rw [behind, List.append_nil] at split
    exact .inl (by rw [Triple.arch, split, String.ofList_toList])
  | cons c rest =>
    have dash : c = '-' := by
      have head := List.head?_dropWhile_not (· != '-') t.text.toList
      rw [behind] at head
      simpa using head
    rw [behind, dash] at split
    refine .inr ⟨String.ofList rest, ?_⟩
    rw [← String.toList_inj, ← split]
    simp [Triple.arch]

namespace CommandLine

variable {label : String} {t : Target} {info other : TargetInfo} {lines : List String}

/-! ### Lines -/

inductive TellsTarget (label : String) (t : Target) : List String → Prop
  | intro {arch : String} (begins : t.triple.Begins arch) : TellsTarget label t
    [label ++ ": " ++ t.triple.text,
      "  Unversioned: " ++ t.unversionedTriple.text,
      "  Module:      " ++ t.moduleTriple.text,
      "  Arch:        " ++ arch,
      "  Requires rpath: " ++ if t.librariesRequireRPath then "yes" else "no"]

inductive TellsVariant : Option Target → List String → Prop
  | none : TellsVariant none []
  | some {t : Target} {lines : List String} (tells : TellsTarget "Target variant" t lines) :
    TellsVariant (some t) ("" :: lines)

inductive TellsPaths : Option RuntimePaths → List String → Prop
  | none : TellsPaths none []
  | some {p : RuntimePaths} : TellsPaths (some p)
    ("" :: ("Runtime resources: " ++ p.resource) ::
      (p.libraries.map ("  Library path: " ++ ·) ++ p.imports.map ("  Import path:  " ++ ·)))

/-- The lines of a summary. -/
inductive Tells (info : TargetInfo) : List String → Prop
  | intro {target variant paths : List String}
    (tellsTarget : TellsTarget "Target" info.target target)
    (tellsVariant : TellsVariant info.variant variant) (tellsPaths : TellsPaths info.paths paths) :
    Tells info (target ++ (variant ++ paths))

theorem exists_tellsTarget (label : String) (t : Target) :
    ∃ lines, TellsTarget label t lines ∧ summaryOfTarget label t = unlines lines := by
  refine ⟨_, .intro t.triple.begins_arch, ?_⟩
  simp only [summaryOfTarget, unlines_cons, String.append_assoc]
  rfl

theorem exists_tellsVariant (variant : Option Target) :
    ∃ lines, TellsVariant variant lines ∧
      String.join (variant.toList.map fun t => "\n" ++ summaryOfTarget "Target variant" t)
        = unlines lines := by
  cases variant with
  | none => exact ⟨[], .none, rfl⟩
  | some t =>
    obtain ⟨lines, tells, same⟩ := exists_tellsTarget "Target variant" t
    refine ⟨_, .some tells, ?_⟩
    rw [Option.toList_some, List.map_singleton, same, unlines_cons]
    simp

theorem exists_tellsPaths (paths : Option RuntimePaths) :
    ∃ lines, TellsPaths paths lines ∧
      String.join (paths.toList.map summaryOfPaths) = unlines lines := by
  cases paths with
  | none => exact ⟨[], .none, rfl⟩
  | some p =>
    refine ⟨_, .some, ?_⟩
    have blank : "\nRuntime resources: " = "" ++ "\n" ++ "Runtime resources: " := by decide +kernel
    rw [Option.toList_some, List.map_singleton, String.join_cons, String.join_nil,
      String.append_empty, unlines_cons, unlines_cons, unlines_append, unlines, unlines,
      List.map_map, List.map_map]
    unfold summaryOfPaths
    rw [blank]
    simp only [String.append_assoc, Function.comp_def]

/-- A summary has all lines that there are about the target, its variant and its paths. -/
theorem exists_tells (info : TargetInfo) :
    ∃ lines, Tells info lines ∧ summary info = unlines lines := by
  obtain ⟨target, tellsTarget, targetText⟩ := exists_tellsTarget "Target" info.target
  obtain ⟨variant, tellsVariant, variantText⟩ := exists_tellsVariant info.variant
  obtain ⟨paths, tellsPaths, pathsText⟩ := exists_tellsPaths info.paths
  refine ⟨_, .intro tellsTarget tellsVariant tellsPaths, ?_⟩
  rw [summary, targetText, variantText, pathsText, unlines_append, unlines_append,
    String.append_assoc]

/-! ### The lines of an answer -/

theorem TellsTarget.unique {lines' : List String} (h : TellsTarget label t lines)
    (h' : TellsTarget label t lines') : lines = lines' := by
  obtain ⟨begins⟩ := h
  obtain ⟨begins'⟩ := h'
  rw [begins.eq_arch, begins'.eq_arch]

theorem TellsVariant.unique {variant : Option Target} {lines' : List String}
    (h : TellsVariant variant lines) (h' : TellsVariant variant lines') : lines = lines' := by
  cases h with
  | none =>
    cases h'
    rfl
  | some told =>
    obtain ⟨⟩ | told' := h'
    rw [told.unique told']

theorem TellsPaths.unique {paths : Option RuntimePaths} {lines' : List String}
    (h : TellsPaths paths lines) (h' : TellsPaths paths lines') : lines = lines' := by
  cases h <;> cases h' <;> rfl

/-- An answer has no other lines. -/
theorem Tells.unique {lines' : List String} (h : Tells info lines) (h' : Tells info lines') :
    lines = lines' := by
  obtain ⟨target, variant, paths⟩ := h
  obtain ⟨target', variant', paths'⟩ := h'
  rw [target.unique target', variant.unique variant', paths.unique paths']

/-! ### What the lines say -/

theorem TellsTarget.length_eq (tells : TellsTarget label t lines) : lines.length = 5 := by
  cases tells
  rfl

theorem TellsTarget.eq {a b : Target} (ha : TellsTarget label a lines)
    (hb : TellsTarget label b lines) : a = b := by
  generalize same : lines = lines' at hb
  obtain ⟨begins⟩ := ha
  obtain ⟨begins'⟩ := hb
  obtain ⟨⟨triple⟩, ⟨unversioned⟩, ⟨module⟩, rpath⟩ := a
  obtain ⟨⟨triple'⟩, ⟨unversioned'⟩, ⟨module'⟩, rpath'⟩ := b
  simp only [List.cons.injEq, String.append_right_inj, and_true] at same
  obtain ⟨rfl, rfl, rfl, -, rpaths⟩ := same
  cases rpath <;> cases rpath' <;> simp at rpaths ⊢

/-- Two lists in one can be told apart if no element of one is an element of the other. -/
theorem map_append_map_inj {α β : Type} {f g : α → β} (hf : f.Injective) (hg : g.Injective)
    (apart : ∀ a b, f a ≠ g b) {as bs as' bs' : List α}
    (same : as.map f ++ bs.map g = as'.map f ++ bs'.map g) : as = as' ∧ bs = bs' := by
  induction as generalizing as' with
  | nil =>
    cases as' with
    | nil => exact ⟨rfl, (List.map_inj_right fun _ _ => @hg _ _).mp same⟩
    | cons a' as' =>
      cases bs with
      | nil => cases same
      | cons b bs => exact absurd (List.cons.inj same).1.symm (apart a' b)
  | cons a as ih =>
    cases as' with
    | nil =>
      cases bs' with
      | nil => cases same
      | cons b' bs' => exact absurd (List.cons.inj same).1 (apart a b')
    | cons a' as' =>
      obtain ⟨first, rest⟩ := List.cons.inj same
      obtain ⟨rfl, rfl⟩ := ih rest
      rw [hf first]
      exact ⟨rfl, rfl⟩

/-- The lines about paths say which paths these are. -/
theorem TellsPaths.eq {a b : Option RuntimePaths} (ha : TellsPaths a lines)
    (hb : TellsPaths b lines) : a = b := by
  generalize same : lines = lines' at hb
  cases ha with
  | none =>
    cases hb with
    | none => rfl
    | some => cases same
  | @some p =>
    cases hb with
    | none => cases same
    | @some q =>
      obtain ⟨libraries, imports, resource⟩ := p
      obtain ⟨libraries', imports', resource'⟩ := q
      simp only [List.cons.injEq, String.append_right_inj, true_and] at same
      obtain ⟨rfl, rest⟩ := same
      have apart : ∀ a b : String, "  Library path: " ++ a ≠ "  Import path:  " ++ b := by
        intro a b same
        have third := congrArg (·.toList[2]?) same
        simp at third
      obtain ⟨rfl, rfl⟩ := map_append_map_inj (fun _ _ => (String.append_right_inj _).mp)
        (fun _ _ => (String.append_right_inj _).mp) apart rest
      rfl

/-- A variant is not taken for paths. -/
theorem TellsVariant.eq {a b : Option Target} {p q : Option RuntimePaths}
    {ls ls' ms ms' : List String} (ha : TellsVariant a ls) (hb : TellsVariant b ls')
    (hp : TellsPaths p ms) (hq : TellsPaths q ms') (same : ls ++ ms = ls' ++ ms') :
    a = b ∧ ms = ms' := by
  have apart : ∀ {t lines ms ms'} {p : Option RuntimePaths},
      TellsTarget "Target variant" t lines → TellsPaths p ms' → "" :: (lines ++ ms) ≠ ms' := by
    intro t lines ms ms' p tells paths same
    cases paths with
    | none => cases same
    | some =>
      obtain ⟨begins⟩ := tells
      have second := congrArg (·.toList.head?) (List.cons.inj (List.cons.inj same).2).1
      simp at second
  cases ha with
  | none =>
    cases hb with
    | none => exact ⟨rfl, same⟩
    | some tells => exact absurd same.symm (apart tells hp)
  | some tells =>
    cases hb with
    | none => exact absurd same (apart tells hq)
    | some tells' =>
      obtain ⟨rfl, rfl⟩ := List.append_inj (List.cons.inj same).2
        (tells.length_eq.trans tells'.length_eq.symm)
      exact ⟨congrArg Option.some (tells.eq tells'), rfl⟩

/-- The lines say it all. -/
theorem Tells.eq (ha : Tells info lines) (hb : Tells other lines) : info = other := by
  generalize same : lines = lines' at hb
  obtain ⟨target, variant, paths⟩ := ha
  obtain ⟨target', variant', paths'⟩ := hb
  obtain ⟨rfl, rest⟩ := List.append_inj same (target.length_eq.trans target'.length_eq.symm)
  obtain ⟨variants, rfl⟩ := variant.eq variant' paths paths' rest
  obtain ⟨t, v, p⟩ := info
  obtain ⟨t', v', p'⟩ := other
  obtain rfl : t = t' := target.eq target'
  obtain rfl : v = v' := variants
  obtain rfl : p = p' := paths.eq paths'
  rfl

end CommandLine

end TargetQuery
