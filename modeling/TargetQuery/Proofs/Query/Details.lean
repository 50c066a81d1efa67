import TargetQuery.Settings.Basic

/-!
# The details of a query on its command line

Four details may be said about a target or left to the frontend. On the command line they stand as
pairs of a label and a value, so they can be told apart by their places, whatever the values are:
who walks the pairs from the left finds exactly the details that the query has.
-/

namespace TargetQuery.Query

/-- Something that a query says, or leaves to the frontend. -/
inductive Detail where
  | target
  | targetVariant
  | sdk
  | resourceDir
deriving DecidableEq, Repr

namespace Detail

/-- All details, in the order in which they stand on a command line. -/
def all : List Detail := [.target, .targetVariant, .sdk, .resourceDir]

theorem mem_all (d : Detail) : d ∈ all := by
  cases d <;> decide

/-- What stands in front of the value. -/
def label : Detail → Bytes
  | .target => Utf8.encode "-target"
  | .targetVariant => Utf8.encode "-target-variant"
  | .sdk => Utf8.encode "-sdk"
  | .resourceDir => Utf8.encode "-resource-dir"

theorem label_injective : Function.Injective label := by
  intro d e same
  revert same
  cases d <;> cases e <;> decide

def ofQuery : Detail → Query → Option Bytes
  | .target, q => q.target.map fun t => Utf8.encode t.text
  | .targetVariant, q => q.targetVariant.map fun t => Utf8.encode t.text
  | .sdk, q => q.sdk.map Location.render
  | .resourceDir, q => q.resourceDir.map Location.render

/-- The bytes that the options of a query give for the detail. -/
def ofOptions : Detail → Options → Option Bytes
  | .target, o => o.target.map fun t => Utf8.encode t.text
  | .targetVariant, o => o.targetVariant.map fun t => Utf8.encode t.text
  | .sdk, o => o.sdk.map Path.bytes
  | .resourceDir, o => o.resourceDir.map Path.bytes

/-- The bytes that a layer of settings gives for the detail. -/
def ofSettings : Detail → Settings → Option Bytes
  | .target, s => s.target.map fun t => Utf8.encode t.text
  | .targetVariant, s => s.targetVariant.map fun t => Utf8.encode t.text
  | .sdk, s => s.sdk.map Path.bytes
  | .resourceDir, s => s.resourceDir.map Path.bytes

/-- The tokens that pass a value on. -/
def tokens (d : Detail) : Option Bytes → List Bytes
  | some value => [d.label, value]
  | none => []

end Detail

/-! ### Writing -/

/-- The tokens in front of all details. -/
def opening : List Bytes := [Utf8.encode "-frontend", Utf8.encode "-print-target-info"]

theorem map_render_labelled (label : String) (value : Option Argument) :
    (labelled label value).map Argument.render
      = match value.map Argument.render with
        | some bytes => [Utf8.encode label, bytes]
        | none => [] := by
  cases value <;> rfl

theorem argv_job (q : Query) (frontend : Path) :
    (q.job frontend).argv = opening ++ Detail.all.flatMap fun d => d.tokens (d.ofQuery q) := by
  obtain ⟨target, variant, sdk, resourceDir, inPlace⟩ := q
  simp only [Job.argv, job, arguments, List.map_append, map_render_labelled, Option.map_map,
    Detail.all, List.flatMap_cons, List.flatMap_nil, List.append_nil, List.append_assoc]
  rfl

theorem jobFor_of_isAbsolute (q : Query) {frontend : Path} (absolute : frontend.isAbsolute = true) :
    q.jobFor (.ok frontend) = .ok (q.job frontend) := by
  rw [jobFor, if_pos absolute]

/-! ### Reading -/

/-- Tokens in pairs, from the left. A last token that stands alone is no pair. -/
def pairs : List Bytes → List (Bytes × Bytes)
  | label :: value :: more => (label, value) :: pairs more
  | _ => []

/-- The value that a command line passes on for a detail, by its place. -/
def passed? (d : Detail) (argv : List Bytes) : Option Bytes :=
  (pairs (argv.drop opening.length)).lookup d.label

theorem pairs_tokens_append (d : Detail) (value : Option Bytes) (more : List Bytes) :
    pairs (d.tokens value ++ more) = (value.map (d.label, ·)).toList ++ pairs more := by
  cases value <;> rfl

theorem pairs_flatMap_tokens (given : Detail → Option Bytes) (details : List Detail) :
    pairs (details.flatMap fun d => d.tokens (given d))
      = details.flatMap fun d => ((given d).map (d.label, ·)).toList := by
  induction details with
  | nil => rfl
  | cons d details ih => rw [List.flatMap_cons, pairs_tokens_append, ih, List.flatMap_cons]

theorem lookup_label (d e : Detail) (value : Option Bytes) :
    (value.map (e.label, ·)).toList.lookup d.label = if d = e then value else none := by
  by_cases same : d = e
  · subst same
    cases value <;> simp
  · have labels : (d.label == e.label) = false := by
      rw [beq_eq_false_iff_ne]
      intro h
      exact same (Detail.label_injective h)
    rw [if_neg same]
    cases value with
    | none => rfl
    | some bytes =>
      rw [Option.map_some, Option.toList_some, List.lookup_cons, labels]
      rfl

/-- The label of a detail leads to its own value, whatever other details there are. -/
theorem lookup_label_flatMap (given : Detail → Option Bytes) (details : List Detail) (d : Detail) :
    (details.flatMap fun e => ((given e).map (e.label, ·)).toList).lookup d.label
      = if d ∈ details then given d else none := by
  induction details with
  | nil => rfl
  | cons e details ih =>
    rw [List.flatMap_cons, List.lookup_append, lookup_label, ih]
    by_cases same : d = e
    · subst same
      rw [if_pos rfl, if_pos List.mem_cons_self]
      split
      · exact Option.or_self
      · exact Option.or_none
    · rw [if_neg same, Option.none_or]
      simp only [List.mem_cons, same, false_or]

theorem pairs_argv_job (q : Query) (frontend : Path) :
    pairs ((q.job frontend).argv.drop opening.length)
      = Detail.all.flatMap fun d => ((d.ofQuery q).map (d.label, ·)).toList := by
  rw [argv_job, List.drop_left, pairs_flatMap_tokens]

/-- The command line of a query passes on what the query says, and nothing where it says nothing. -/
theorem passed?_argv_job (q : Query) (frontend : Path) (d : Detail) :
    passed? d (q.job frontend).argv = d.ofQuery q := by
  rw [passed?, pairs_argv_job, lookup_label_flatMap (fun d => d.ofQuery q), if_pos d.mem_all]

/-! ### Layers -/

theorem Detail.ofSettings_merge (d : Detail) (below above : Settings) :
    d.ofSettings (below.merge above) = (d.ofSettings above).or (d.ofSettings below) := by
  obtain ⟨frontend, sdk, resourceDir, target, variant⟩ := above
  cases d with
  | target => cases target <;> rfl
  | targetVariant => cases variant <;> rfl
  | sdk => cases sdk <;> rfl
  | resourceDir => cases resourceDir <;> rfl

theorem render_ofPath (p : Path) : (Location.ofPath p).render = p.bytes := by
  rw [Location.ofPath]
  split <;> rfl

/-- A query has each detail from its options, or else from the settings. -/
theorem Detail.ofQuery_query (d : Detail) (o : Options) (s : Settings) :
    d.ofQuery (o.query s) = (d.ofOptions o).or (d.ofSettings s) := by
  have path : ∀ a b : Option Path, ((a <|> b).map Location.ofPath).map Location.render
      = (a.map Path.bytes).or (b.map Path.bytes) := by
    intro a b
    have rendered : Location.render ∘ Location.ofPath = Path.bytes := funext render_ofPath
    rw [Option.map_map, rendered]
    cases a <;> rfl
  obtain ⟨target, variant, sdk, resourceDir, inPlace⟩ := o
  cases d with
  | target => cases target <;> rfl
  | targetVariant => cases variant <;> rfl
  | sdk => exact path _ _
  | resourceDir => exact path _ _

end TargetQuery.Query
