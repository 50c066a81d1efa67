import TargetQuery.Proofs.Job.RoundTrip
import TargetQuery.Proofs.Json.TagOrder

/-!
# Tags behind their contents

Locations and arguments are read with the tag in front of its content or behind it, and mean the
same. For locations this holds without exception. The content of an argument can be a location
again, and there the two orders differ at the edges: behind its content a tag lets the location
count its own tag, and in front of it the location may have unknown members that could not be kept.
-/

namespace TargetQuery

open Json Json.Grammar

/-! ### Locations -/

namespace Location

theorem kept_path {make : Path → Location} {room : Nat} {t : Tree} {l : Location} :
    (pathContent make).Kept room t l ↔ ∃ s, t = .text (some s) ∧ make (.ofString s) = l :=
  Content.kept_text

/-- A tag has a path or nothing. -/
theorem lists_cases {content : Content Location} (h : tagged.Lists content) :
    (∃ make, content = pathContent make) ∨ ∃ title l, content = .nothing title l := by
  obtain ⟨name, h⟩ := h
  simp only [tagged, List.lookup_cons] at h
  repeat' split at h
  · exact .inl ⟨_, (Option.some.inj h).symm⟩
  · exact .inl ⟨_, (Option.some.inj h).symm⟩
  · exact .inl ⟨_, (Option.some.inj h).symm⟩
  · exact .inr ⟨_, _, (Option.some.inj h).symm⟩
  · exact .inr ⟨_, _, (Option.some.inj h).symm⟩
  · cases h

theorem grounded_content {content : Content Location} (h : tagged.Lists content) (room : Nat) :
    Grounded (content.read room) (content.Kept room) := by
  obtain ⟨make, rfl⟩ | ⟨title, l, rfl⟩ := lists_cases h
  · refine ((grounded_textValue "path string").map fun s => make (.ofString s)).mono ?_
    rintro _ _ ⟨s, rfl, rfl⟩
    exact kept_path.mpr ⟨s, rfl, rfl⟩
  · exact Content.grounded_nothing title l

theorem takes_content {content : Content Location} (h : tagged.Lists content) {room : Nat}
    {t : Tree} {l : Location} (kept : content.Kept room t l) : Takes (content.read room) t l := by
  obtain ⟨make, rfl⟩ | ⟨title, y, rfl⟩ := lists_cases h
  · obtain ⟨s, rfl, rfl⟩ := kept_path.mp kept
    exact (takes_textValue "path string" s).map fun s => make (.ofString s)
  · exact Content.takes_nothing kept

/-- What a tree stands for as a location. What is kept of a content is enough to read it. -/
def Stands (room : Nat) : Tree → Location → Prop :=
  tagged.Stands room (Content.Kept (room - 1))

theorem grounded_read (room : Nat) : Grounded (Location.read room) (Stands room) :=
  Tagged.grounded_read fun _ listed => grounded_content listed _

theorem takes_of_stands {room : Nat} {t : Tree} {l : Location} (h : Stands room t l) :
    Takes (Location.read room) t l :=
  Tagged.takes_of_stands (by decide) (fun listed kept => takes_content listed kept) h

/-- A location is read alike in both orders of its members. -/
theorem run_order {room : Nat} {T C s s' : Bytes} (isT : IsValue T) (isC : IsValue C)
    (behind : Pair "path" "kind" C T s) (ahead : Pair "kind" "path" T C s') (l : Location) :
    (Location.read room).run s = .ok l ↔ (Location.read room).run s' = .ok l := by
  have grounded : ∀ content, tagged.Lists content →
      Grounded (content.read (room - 1)) (content.Kept (room - 1)) :=
    fun _ listed => grounded_content listed _
  have takes : ∀ {content : Content Location} {t l}, tagged.Lists content →
      content.Kept (room - 1) t l → Takes (content.read (room - 1)) t l :=
    fun listed kept => takes_content listed kept
  have first := Tagged.run_content_first (x := l) (by decide) grounded takes isC isT behind
  have second := Tagged.run_tag_first (x := l) (by decide) grounded takes isT isC ahead
  refine first.trans (Iff.trans ?_ second.symm)
  constructor
  · rintro ⟨enough, c, t, content, isC, isT, named, kept⟩
    exact ⟨enough, t, c, content, isT, isC, named, kept⟩
  · rintro ⟨enough, t, c, content, isT, isC, named, kept⟩
    exact ⟨enough, c, t, content, isC, isT, named, kept⟩

end Location

/-! ### Arguments -/

namespace Argument

/-- What a tree stands for as the content of an argument that is read at once. -/
inductive Direct (room : Nat) : Content Argument → Tree → Argument → Prop
  | flag {content : Content Argument} {s : String} :
      tagged.cases.lookup "flag" = some content → Direct room content (.text (some s)) (.flag s)
  | location {make : Location → Argument} {t : Tree} {l : Location} : Location.Stands room t l →
      Direct room (locationContent make) t (make l)

theorem lists_cases {content : Content Argument} (h : tagged.Lists content) :
    tagged.cases.lookup "flag" = some content ∨ ∃ make, content = locationContent make := by
  obtain ⟨name, h⟩ := h
  simp only [tagged, List.lookup_cons] at h
  repeat' split at h
  · exact .inl h
  · exact .inr ⟨_, (Option.some.inj h).symm⟩
  · exact .inr ⟨_, (Option.some.inj h).symm⟩
  · cases h

theorem kept_flag {content : Content Argument} (h : tagged.cases.lookup "flag" = some content)
    {room : Nat} {t : Tree} {a : Argument} :
    content.Kept room t a ↔ ∃ s, t = .text (some s) ∧ .flag s = a := by
  cases h
  exact Content.kept_text

theorem kept_location {make : Location → Argument} {room : Nat} {t : Tree} {a : Argument} :
    (locationContent make).Kept room t a ↔
      ∃ b l, t.kept? room = some b ∧ Location.tagged.ofBuffered b = .ok l ∧ make l = a := by
  constructor
  · rintro ⟨b, kept, took⟩
    obtain ⟨l, took, same⟩ := except_bind_eq_ok.mp took
    exact ⟨b, l, kept, took, except_pure_eq_ok.mp same⟩
  · rintro ⟨b, l, kept, took, rfl⟩
    exact ⟨b, kept, except_bind_eq_ok.mpr ⟨l, took, rfl⟩⟩

theorem grounded_content {content : Content Argument} (h : tagged.Lists content) (room : Nat) :
    Grounded (content.read room) (Direct room content) := by
  obtain flag | ⟨make, rfl⟩ := lists_cases h
  · cases flag
    refine ((grounded_textValue "a string").map Argument.flag).mono ?_
    rintro _ _ ⟨s, rfl, rfl⟩
    exact .flag rfl
  · refine ((Location.grounded_read room).map make).mono ?_
    rintro t a ⟨l, here, rfl⟩
    exact .location here

theorem takes_content {content : Content Argument} {room : Nat} {t : Tree} {a : Argument}
    (h : Direct room content t a) : Takes (content.read room) t a := by
  cases h with
  | flag listed =>
    cases listed
    exact (takes_textValue "a string" _).map Argument.flag
  | location here => exact (Location.takes_of_stands here).map _

/-- What is kept is also read at once, unless a location has its tag written in a lax way. -/
theorem direct_of_kept {content : Content Argument} (h : tagged.Lists content) {room : Nat}
    {t : Tree} {a : Argument} (kept : content.Kept room t a) (strict : ¬ Location.tagged.Lax t) :
    Direct room content t a := by
  obtain flag | ⟨make, rfl⟩ := lists_cases h
  · obtain ⟨s, rfl, rfl⟩ := (kept_flag flag).mp kept
    exact .flag flag
  · obtain ⟨b, l, inner, took, rfl⟩ := kept_location.mp kept
    exact .location (Tagged.stands_of_kept inner took strict)

/-- What is read at once can also be kept, unless a location has unknown members. -/
theorem kept_of_direct {content : Content Argument} {room : Nat} {t : Tree} {a : Argument}
    (h : Direct room content t a) (plain : Location.tagged.Plain t) : content.Kept room t a := by
  cases h with
  | flag listed => exact (kept_flag listed).mpr ⟨_, rfl, rfl⟩
  | location here =>
    obtain ⟨b, kept, took⟩ := Tagged.kept_of_stands here (by decide) plain
    exact kept_location.mpr ⟨b, _, kept, took, rfl⟩

/-- What a tree stands for as an argument. -/
def Stands (room : Nat) : Tree → Argument → Prop := tagged.Stands room (Direct (room - 1))

theorem takes_of_stands {room : Nat} {t : Tree} {a : Argument} (h : Stands room t a) :
    Takes (Argument.read room) t a :=
  Tagged.takes_of_stands (by decide) (fun _ here => takes_content here) h

/-- An argument that is read in one order of its members is read in the other one, too, unless its
content is one of the exceptions. -/
theorem run_order {room : Nat} {T C s s' : Bytes} (isT : IsValue T) (isC : IsValue C)
    (behind : Pair "value" "kind" C T s) (ahead : Pair "kind" "value" T C s') (a : Argument) :
    ((∀ t, Document t C → ¬ Location.tagged.Lax t) →
      (Argument.read room).run s = .ok a → (Argument.read room).run s' = .ok a) ∧
    ((∀ t, Document t C → Location.tagged.Plain t) →
      (Argument.read room).run s' = .ok a → (Argument.read room).run s = .ok a) := by
  have grounded : ∀ content, tagged.Lists content →
      Grounded (content.read (room - 1)) (Direct (room - 1) content) :=
    fun _ listed => grounded_content listed _
  have takes : ∀ {content : Content Argument} {t a}, tagged.Lists content →
      Direct (room - 1) content t a → Takes (content.read (room - 1)) t a :=
    fun _ here => takes_content here
  have first := Tagged.run_content_first (x := a) (by decide) grounded takes isC isT behind
  have second := Tagged.run_tag_first (x := a) (by decide) grounded takes isT isC ahead
  refine ⟨fun strict run => ?_, fun plain run => ?_⟩
  · obtain ⟨enough, c, t, content, isC, isT, named, kept⟩ := first.mp run
    have direct := direct_of_kept named.exists_lookup kept (strict c isC)
    exact second.mpr ⟨enough, t, c, content, isT, isC, named, direct⟩
  · obtain ⟨enough, t, c, content, isT, isC, named, direct⟩ := second.mp run
    have kept := kept_of_direct direct (plain c isC)
    exact first.mpr ⟨enough, c, t, content, isC, isT, named, kept⟩

/-- A path whose location counts its tag is accepted in front of the tag of the argument only. -/
theorem order_matters : ∃ T C s s' a, IsValue T ∧ IsValue C ∧ Pair "value" "kind" C T s ∧
    Pair "kind" "value" T C s' ∧ (Argument.read maxDepth).run s = .ok a ∧
    (Argument.read maxDepth).run s' ≠ .ok a := by
  -- The tag is "path" and the content is [1,"p"], as one is the place of relative paths.
  have isT : IsValue [0x22, 0x70, 0x61, 0x74, 0x68, 0x22] :=
    ⟨_, Value.document_toCompact (.text "path")⟩
  have isNumber : Grammar.Number [0x31] [] := .positive
    (.mk (.digits (by decide) (.last [] (by decide))) (.none []) (.none []))
  have isC : IsValue [0x5B, 0x31, 0x2C, 0x22, 0x70, 0x22, 0x5D] := by
    have number : Element (.number [0x31]) ([0x31] ++ [0x2C, 0x22, 0x70, 0x22, 0x5D])
        [0x2C, 0x22, 0x70, 0x22, 0x5D] := .mk (.nil _) (.number _ isNumber) (.nil _)
    have path : Element (.text (some "p")) [0x22, 0x70, 0x22, 0x5D] [0x5D] :=
      .mk (.nil _) (.text (Value.quoted_quote "p" _)) (.nil _)
    exact ⟨_, .mk (.nil _) (.list (.cons (.cons number (.last path)))) (.nil _)⟩
  refine ⟨_, _, _, _, .path (.relative (.ofString "p")), isT, isC, pair_pairText _ _ _ _,
    pair_pairText _ _ _ _, rfl, ?_⟩
  have refused : ∃ m, (Argument.read maxDepth).run
      (pairText "kind" "value" [0x22, 0x70, 0x61, 0x74, 0x68, 0x22]
        [0x5B, 0x31, 0x2C, 0x22, 0x70, 0x22, 0x5D]) = .error m := ⟨_, rfl⟩
  obtain ⟨m, refused⟩ := refused
  rw [refused]
  rintro ⟨⟩

end Argument

/-! ### Written jobs with members exchanged -/

namespace Json.Value

mutual

/-- The same value, but for tags that have come to stand behind their contents. -/
inductive Retagged : Value → Value → Prop
  | null : Retagged .null .null
  | bool (b : Bool) : Retagged (.bool b) (.bool b)
  | text (s : String) : Retagged (.text s) (.text s)
  | list {vs ws : List Value} : RetaggedItems vs ws → Retagged (.list vs) (.list ws)
  | object {ms ns : List (String × Value)} : RetaggedMembers ms ns →
      Retagged (.object ms) (.object ns)
  | swap {name : String} {tag tag' content content' : Value} : name = "path" ∨ name = "value" →
      Retagged tag tag' → Retagged content content' →
      Retagged (.object [("kind", tag), (name, content)])
        (.object [(name, content'), ("kind", tag')])

inductive RetaggedItems : List Value → List Value → Prop
  | nil : RetaggedItems [] []
  | cons {v w : Value} {vs ws : List Value} : Retagged v w → RetaggedItems vs ws →
      RetaggedItems (v :: vs) (w :: ws)

inductive RetaggedMembers : List (String × Value) → List (String × Value) → Prop
  | nil : RetaggedMembers [] []
  | cons {name : String} {v w : Value} {ms ns : List (String × Value)} : Retagged v w →
      RetaggedMembers ms ns → RetaggedMembers ((name, v) :: ms) ((name, w) :: ns)

end

theorem Retagged.eq_text {s : String} {w : Value} (h : Retagged (.text s) w) : w = .text s := by
  cases h
  rfl

/-- Only an object that begins with a tag can come to be in another order. -/
theorem Retagged.members {ms : List (String × Value)} {w : Value} (h : Retagged (.object ms) w)
    (untagged : ∀ v more, ms ≠ ("kind", v) :: more) :
    ∃ ns, w = .object ns ∧ RetaggedMembers ms ns := by
  cases h with
  | object members => exact ⟨_, rfl, members⟩
  | swap => exact absurd rfl (untagged _ _)

end Json.Value

open Json.Value (Retagged RetaggedItems RetaggedMembers)

namespace Location

/-- What is written of a location, with its members in either order. -/
theorem retagged_cases {l : Location} {v w : Value} (h : l.toJson? = .ok v)
    (retagged : Retagged v w) :
    (∃ title, tagged.cases.lookup l.tag = some (.nothing title l) ∧
      w.toTree = .object [(some "kind", .text (some l.tag))]) ∨
    ∃ make s, tagged.cases.lookup l.tag = some (pathContent make) ∧ make (.ofString s) = l ∧
      (w.toTree = .object [(some "kind", .text (some l.tag)), (some "path", .text (some s))] ∨
        w.toTree = .object [(some "path", .text (some s)), (some "kind", .text (some l.tag))]) := by
  rw [toJson?_eq_ok] at h
  cases path : l.path? with
  | none =>
    rw [path] at h
    obtain ⟨title, listed⟩ := lookup_tag_of_stream path
    subst h
    obtain ⟨⟩ | ⟨⟩ | ⟨⟩ | ⟨⟩ | ⟨_ | ⟨tag, ⟨⟩⟩⟩ := retagged
    cases tag
    exact .inl ⟨title, listed, rfl⟩
  | some p =>
    rw [path] at h
    obtain ⟨s, rfl, rfl⟩ := h
    obtain ⟨make, listed, same⟩ := lookup_tag_of_path path
    refine .inr ⟨make, s, listed, same, ?_⟩
    cases retagged with
    | object members =>
      obtain _ | ⟨tag, _ | ⟨text, ⟨⟩⟩⟩ := members
      cases tag
      cases text
      exact .inl rfl
    | swap _ tag text =>
      cases tag
      cases text
      exact .inr rfl

theorem stands_retagged {l : Location} {v w : Value} (h : l.toJson? = .ok v)
    (retagged : Retagged v w) {room : Nat} (enough : 2 ≤ room) : Stands room w.toTree l := by
  obtain ⟨title, listed, same⟩ | ⟨make, s, listed, rfl, order⟩ := retagged_cases h retagged
  · rw [same]
    exact .object enough (.cons (.tag (.text listed)) (.nil _)) rfl
  · have kept : (pathContent make).Kept (room - 1) (.text (some s)) (make (.ofString s)) :=
      kept_path.mpr ⟨s, rfl, rfl⟩
    obtain ahead | behind := order
    · rw [ahead]
      exact (Tagged.stands_tag_first (by decide)).mpr ⟨enough, _, .text listed, kept⟩
    · rw [behind]
      exact (Tagged.stands_content_first (by decide)).mpr ⟨enough, _, .text listed, kept⟩

theorem plain_retagged {l : Location} {v w : Value} (h : l.toJson? = .ok v)
    (retagged : Retagged v w) : tagged.Plain w.toTree := by
  obtain ⟨_, _, same⟩ | ⟨_, _, _, _, same | same⟩ := retagged_cases h retagged
  all_goals
    rw [same]
    rintro _ ⟨⟩ name c mem
    simp only [List.mem_cons, List.not_mem_nil, or_false, Prod.mk.injEq, Option.some.injEq] at mem
    simp only [tagged]
    tauto

end Location

namespace Argument

theorem direct_retagged {a : Argument} {content w : Value}
    (written : match a with
      | .flag text => content = .text text
      | .path l | .responseFile l => l.toJson? = .ok content)
    (retagged : Retagged content w) {room : Nat} (enough : 2 ≤ room) :
    ∃ c, tagged.cases.lookup a.tag = some c ∧ Direct room c w.toTree a ∧
      Location.tagged.Plain w.toTree := by
  cases a with
  | flag text =>
    subst written
    obtain rfl := retagged.eq_text
    exact ⟨_, rfl, .flag rfl, by rintro _ ⟨⟩⟩
  | path l =>
    exact ⟨_, rfl, .location (Location.stands_retagged written retagged enough),
      Location.plain_retagged written retagged⟩
  | responseFile l =>
    exact ⟨_, rfl, .location (Location.stands_retagged written retagged enough),
      Location.plain_retagged written retagged⟩

/-- An argument still stands for itself after members inside it were exchanged. -/
theorem stands_retagged {a : Argument} {v w : Value} (h : a.toJson? = .ok v)
    (retagged : Retagged v w) {room : Nat} (enough : 3 ≤ room) : Stands room w.toTree a := by
  obtain ⟨content, rfl, written⟩ := toJson?_eq_ok.mp h
  have two : 2 ≤ room := by omega
  have inner : 2 ≤ room - 1 := by omega
  cases retagged with
  | object members =>
    obtain _ | ⟨tag, _ | ⟨inside, ⟨⟩⟩⟩ := members
    cases tag
    obtain ⟨c, listed, direct, -⟩ := direct_retagged written inside inner
    exact (Tagged.stands_tag_first (by decide)).mpr ⟨two, c, .text listed, direct⟩
  | swap _ tag inside =>
    cases tag
    obtain ⟨c, listed, direct, plain⟩ := direct_retagged written inside inner
    exact (Tagged.stands_content_first (by decide)).mpr
      ⟨two, c, .text listed, kept_of_direct direct plain⟩

end Argument

theorem TypedLocation.takes_retagged {f : TypedLocation} {v w : Value} (h : f.toJson? = .ok v)
    (retagged : Retagged v w) {room : Nat} (enough : 3 ≤ room) :
    Takes (TypedLocation.read room) w.toTree f := by
  obtain ⟨file, written, rfl⟩ := toJson?_eq_ok.mp h
  obtain ⟨_, rfl, members⟩ := retagged.members (by simp)
  obtain _ | ⟨inside, _ | ⟨fileType, ⟨⟩⟩⟩ := members
  obtain rfl := fileType.eq_text
  have inner : 2 ≤ room - 1 := by omega
  exact takes_members (by omega)
    (Location.takes_of_stands (Location.stands_retagged written inside inner))

/-- A list is taken element by element, whatever order the tags in it have. -/
theorem forall₂_retagged {α : Type} {write : α → Except WriteError Value} {read : Reader α}
    (takes : ∀ {x v w}, write x = .ok v → Retagged v w → Takes read w.toTree x) {xs : List α}
    {vs : List Value} (h : xs.mapM write = .ok vs) {w : Value} (retagged : Retagged (.list vs) w) :
    ∃ ws, w = .list ws ∧ List.Forall₂ (Takes read) (Value.itemTrees ws) xs := by
  cases retagged with
  | @list _ ws items =>
    refine ⟨ws, rfl, ?_⟩
    have pairs := mapM_eq_ok.mp h
    clear h
    induction pairs generalizing ws with
    | nil =>
      cases items
      exact .nil
    | cons here _ ih =>
      obtain _ | ⟨first, more⟩ := items
      exact .cons (takes here first) (ih more)

namespace Job

/-- A job is read back from its value in any order of the tags inside it. -/
theorem takes_retagged {j : Job} {v w : Value} (h : j.toJson? = .ok v) (retagged : Retagged v w)
    {room : Nat} (enough : 5 ≤ room) : Takes (Job.read room) w.toTree j := by
  obtain ⟨tool, arguments, displayInputs, inputs, outputs, hTool, hArguments, hDisplay, hInputs,
    hOutputs, rfl⟩ := toJson?_eq_ok.mp h
  have two : 2 ≤ room - 1 := by omega
  have three : 3 ≤ room - 1 - 1 := by omega
  have inFiles : ∀ {files : List TypedLocation} {values : List Value} {w : Value},
      files.mapM TypedLocation.toJson? = .ok values → Retagged (.list values) w →
      Takes (listValue TypedLocation.read (room - 1)) w.toTree files := by
    intro files values w written retagged
    obtain ⟨ws, rfl, items⟩ := forall₂_retagged
      (fun h retagged => TypedLocation.takes_retagged h retagged three) written retagged
    exact takes_listValue two items
  have inArguments : ∀ {w : Value}, Retagged (.list arguments) w →
      Takes (listValue Argument.read (room - 1)) w.toTree j.arguments := by
    intro w retagged
    obtain ⟨ws, rfl, items⟩ := forall₂_retagged
      (fun h retagged => Argument.takes_of_stands (Argument.stands_retagged h retagged three))
      hArguments retagged
    exact takes_listValue two items
  obtain ⟨_, rfl, members⟩ := retagged.members (by simp)
  obtain _ | ⟨moduleName, _ | ⟨kind, _ | ⟨tool, _ | ⟨arguments, _ | ⟨displayInputs, _ | ⟨inputs,
    _ | ⟨outputs, _ | ⟨inPlace, _ | ⟨responseFiles, ⟨⟩⟩⟩⟩⟩⟩⟩⟩⟩⟩ := members
  obtain rfl := moduleName.eq_text
  obtain rfl := kind.eq_text
  cases inPlace
  cases responseFiles
  have takesTool := Location.takes_of_stands (Location.stands_retagged hTool tool two)
  exact takes_members (by omega) takesTool (inArguments arguments) (inFiles hDisplay displayInputs)
    (inFiles hInputs inputs) (inFiles hOutputs outputs)

/-- The order of a tag and its content changes nothing. A location means the same in either order.
An argument that is accepted with its content first is accepted with its tag first, as the same,
unless the tag of a location in it is written in a lax way; and the other way round, unless that
location has unknown members. What is written of a job is read back as the same job with any tags
behind their contents and any white space. -/
theorem read_in_either_order :
    (∀ (room : Nat) (T C s s' : Bytes) (l : Location), IsValue T → IsValue C →
      Pair "path" "kind" C T s → Pair "kind" "path" T C s' →
        ((Location.read room).run s = .ok l ↔ (Location.read room).run s' = .ok l)) ∧
    (∀ (room : Nat) (T C s s' : Bytes) (a : Argument), IsValue T → IsValue C →
      Pair "value" "kind" C T s → Pair "kind" "value" T C s' →
        ((∀ t, Document t C → ¬ Location.tagged.Lax t) →
          (Argument.read room).run s = .ok a → (Argument.read room).run s' = .ok a) ∧
        ((∀ t, Document t C → Location.tagged.Plain t) →
          (Argument.read room).run s' = .ok a → (Argument.read room).run s = .ok a)) ∧
    ∀ (j : Job) (v w : Value) (s : Bytes), j.toJson? = .ok v → Retagged v w →
      Document w.toTree s → ofJson? s = .ok j := by
  refine ⟨fun room T C s s' l isT isC behind ahead => ?_,
    fun room T C s s' a isT isC behind ahead => ?_, fun j v w s written retagged document => ?_⟩
  · exact Location.run_order isT isC behind ahead l
  · exact Argument.run_order isT isC behind ahead a
  · have deep : 5 ≤ maxDepth := by decide
    have run : (read maxDepth).run s = .ok j := (takes_retagged written retagged deep).run document
    rw [ofJson?, run]
    rfl

/-- A job whose only argument is a path. -/
def nested : Job where
  kind := .printTargetInfo
  tool := .absolute ⟨[0x2F]⟩
  arguments := [.path (.relative ⟨[0x70]⟩)]

/-- What is written of it, with every tag behind its content. -/
def nestedRetagged : Value :=
  .object
    [("module_name", .text ""),
     ("kind", .text "print-target-info"),
     ("tool", .object [("path", .text "/"), ("kind", .text "absolute")]),
     ("command_line", .list [.object
       [("value", .object [("path", .text "p"), ("kind", .text "relative")]),
        ("kind", .text "path")]]),
     ("display_inputs", .list []),
     ("inputs", .list []),
     ("outputs", .list []),
     ("requires_in_place_execution", .bool false),
     ("supports_response_files", .bool false)]

theorem retagged_nested : ∃ v, nested.toJson? = .ok v ∧ Retagged v nestedRetagged := by
  have path : ∀ a b, Retagged (.object [("kind", .text a), ("path", .text b)])
      (.object [("path", .text b), ("kind", .text a)]) :=
    fun a b => .swap (.inl rfl) (.text a) (.text b)
  have argument : Retagged
      (.object [("kind", .text "path"),
        ("value", .object [("kind", .text "relative"), ("path", .text "p")])])
      (.object [("value", .object [("path", .text "p"), ("kind", .text "relative")]),
        ("kind", .text "path")]) :=
    .swap (.inr rfl) (.text _) (path _ _)
  refine ⟨_, rfl, .object ?_⟩
  exact .cons (.text _) <| .cons (.text _) <| .cons (path _ _) <|
    .cons (.list (.cons argument .nil)) <| .cons (.list .nil) <| .cons (.list .nil) <|
    .cons (.list .nil) <| .cons (.bool _) <| .cons (.bool _) .nil

/-- The texts of a relative location and of the tags around it. -/
def relativeText : Bytes :=
  pairText "kind" "path" [0x22, 0x72, 0x65, 0x6C, 0x61, 0x74, 0x69, 0x76, 0x65, 0x22]
    [0x22, 0x70, 0x22]

def pathTag : Bytes := [0x22, 0x70, 0x61, 0x74, 0x68, 0x22]

/-- Its tag is a string, and it has no other members. -/
theorem document_relativeText {t : Tree} (h : Document t relativeText) :
    ¬ Location.tagged.Lax t ∧ Location.tagged.Plain t := by
  obtain ⟨k, l, u, v, rfl, isTag, isPath, first, second⟩ := (pair_pairText _ _ _ _).members
    ⟨_, Value.document_toCompact (.text "relative")⟩ ⟨_, Value.document_toCompact (.text "p")⟩ h
  obtain ⟨tag, rfl⟩ := isTag.text
  obtain ⟨path, rfl⟩ := isPath.text
  constructor
  · intro lax
    cases lax with
    | member mem => simp at mem
  · rintro _ ⟨⟩ name c mem
    simp only [List.mem_cons, List.not_mem_nil, or_false, Prod.mk.injEq] at mem
    obtain ⟨same, -⟩ | ⟨same, -⟩ := mem
    · exact .inl (first name same.symm)
    · exact .inr (second name same.symm)

theorem read_in_either_order_nested :
    (Argument.read maxDepth).run (pairText "value" "kind" relativeText pathTag)
      = .ok (.path (.relative (.ofString "p"))) ∧
    (Argument.read maxDepth).run (pairText "kind" "value" pathTag relativeText)
      = .ok (.path (.relative (.ofString "p"))) ∧
    (Location.read maxDepth).run (pairText "path" "kind" [0x22, 0x70, 0x22]
      [0x22, 0x72, 0x65, 0x6C, 0x61, 0x74, 0x69, 0x76, 0x65, 0x22])
        = .ok (.relative (.ofString "p")) ∧
    ofJson? (Utf8.encode nestedRetagged.toCompact) = .ok nested := by
  obtain ⟨locations, arguments, jobs⟩ := read_in_either_order
  have isPath : IsValue [0x22, 0x70, 0x22] := ⟨_, Value.document_toCompact (.text "p")⟩
  have isRelative : IsValue [0x22, 0x72, 0x65, 0x6C, 0x61, 0x74, 0x69, 0x76, 0x65, 0x22] :=
    ⟨_, Value.document_toCompact (.text "relative")⟩
  have isTag : IsValue pathTag := ⟨_, Value.document_toCompact (.text "path")⟩
  have isContent : IsValue relativeText := by
    obtain ⟨_, tag⟩ := isRelative
    obtain ⟨_, path⟩ := isPath
    exact ⟨_, (pair_pairText _ _ _ _).document tag path⟩
  have ⟨ahead, behind⟩ := arguments maxDepth pathTag relativeText _ _
    (.path (.relative (.ofString "p"))) isTag isContent (pair_pairText _ _ _ _)
    (pair_pairText _ _ _ _)
  have first : (Argument.read maxDepth).run (pairText "value" "kind" relativeText pathTag)
      = .ok (.path (.relative (.ofString "p"))) := rfl
  have second := ahead (fun t h => (document_relativeText h).1) first
  obtain ⟨v, written, retagged⟩ := retagged_nested
  refine ⟨behind (fun t h => (document_relativeText h).2) second, second, ?_,
    jobs nested v nestedRetagged _ written retagged nestedRetagged.document_toCompact⟩
  exact (locations maxDepth _ _ _ _ _ isRelative isPath (pair_pairText _ _ _ _)
    (pair_pairText _ _ _ _)).mpr rfl

end Job

end TargetQuery
