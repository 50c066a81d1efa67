import Mathlib.Logic.Relation
import TargetQuery.Proofs.Json.Insertion
import TargetQuery.Proofs.Json.Rendering
import TargetQuery.Proofs.TargetInfo.Completeness
import TargetQuery.Proofs.TargetInfo.Strict

/-!
# Unknown members

A member that is no field of its record is nothing to it. Such a member may be written at any place
between the members of the answer, of its targets and of its paths, as often as one likes, and its
value may be anything that a text can say: the answer that is read stays the same.
-/

namespace TargetQuery

open Json Grammar

namespace Target

theorem ofTree?_insert {name : String} (unknown : name ∉ record.names) (t : Tree)
    (before after : MemberList) :
    ofTree? (.object (before ++ (some name, t) :: after))
      = ofTree? (.object (before ++ after)) := by
  rw [← record_ofTree?, ← record_ofTree?, Record.ofTree?_insert unknown]

end Target

namespace RuntimePaths

theorem ofTree?_insert {name : String} (unknown : name ∉ record.names) (t : Tree)
    (before after : MemberList) :
    ofTree? (.object (before ++ (some name, t) :: after))
      = ofTree? (.object (before ++ after)) := by
  rw [← record_ofTree?, ← record_ofTree?, Record.ofTree?_insert unknown]

end RuntimePaths

namespace TargetInfo

/-- The records that an answer has for fields, in their order, with the names of their fields. -/
def parts : List (String × List String) :=
  [("target", Target.record.names), ("targetVariant", Target.record.names),
   ("paths", RuntimePaths.record.names)]

/-- A record of the text is written as an object: the names of its fields, and the text behind the
brace that opens it. The record is the whole, or stands under its name in an object, or at its place
in a list. -/
inductive Opens : List String → Bytes → Bytes → Prop
  | answer {s content : Bytes} : Blank s (Ascii.openBrace :: content) →
      Opens record.names s content
  | member {name : String} {names : List String} {seen : MemberList}
      {s a b c d e content : Bytes} : (name, names) ∈ parts →
      Blank s (Ascii.openBrace :: a) → Passed Member seen a b → Blank b c →
      Quoted (some name) c d → Blank d (Ascii.colon :: e) →
      Blank e (Ascii.openBrace :: content) → Opens names s content
  | element {name : String} {names : List String} {seen : List Tree} {s a b content : Bytes} :
      parts[seen.length]? = some (name, names) → Blank s (Ascii.openBracket :: a) →
      Passed Element seen a b → Blank b (Ascii.openBrace :: content) → Opens names s content

/-- The second text has one more member than the first: in one of the records that are written as
objects, at some place between its members, under a name that is none of its fields, and with any
value. -/
inductive Gains : Bytes → Bytes → Prop
  | mk {names : List String} {name : String} {value : Tree}
      {front content behind new added : Bytes} :
      Opens names (front ++ behind) content → name ∉ names → Member (some name, value) new [] →
      Joins new content behind added → Gains (front ++ behind) (front ++ (added ++ behind))

theorem fill_insert {name key : String} {names : List String} (part : (name, names) ∈ parts)
    (unknown : key ∉ names) (t : Tree) (before after : MemberList) (d : Draft) :
    fill name d (.object (before ++ (some key, t) :: after))
      = fill name d (.object (before ++ after)) := by
  simp only [parts, List.mem_cons, Prod.mk.injEq, List.not_mem_nil, or_false] at part
  obtain ⟨rfl, rfl⟩ | ⟨rfl, rfl⟩ | ⟨rfl, rfl⟩ := part
  · simp [fill, Target.ofTree?_insert unknown]
  · simp [fill, Tree.nullable?, Target.ofTree?_insert unknown]
  · simp [fill, Tree.nullable?, RuntimePaths.ofTree?_insert unknown]

theorem named_of_ofTree? {members : MemberList} {i : TargetInfo}
    (meant : ofTree? (.object members) = some i) : MemberList.named members = true :=
  (strict_of_ofTree? meant).1

theorem ofTree?_exchange_member {name key : String} {names : List String}
    (part : (name, names) ∈ parts) (unknown : key ∉ names) (t : Tree)
    (before after first others : MemberList) :
    ofTree? (.object (first ++ (some name, .object (before ++ (some key, t) :: after)) :: others))
      = ofTree? (.object (first ++ (some name, .object (before ++ after)) :: others)) := by
  rw [← record_ofTree?, ← record_ofTree?,
    Record.ofTree?_exchange (fill_insert part unknown t before after)]

/-- What nobody asks for in a part of a list does not count. -/
theorem ofTree?_exchange_element {name key : String} {names : List String} {first : List Tree}
    (part : parts[first.length]? = some (name, names)) (unknown : key ∉ names) (t : Tree)
    (before after : MemberList) (others : List Tree) :
    ofTree? (.list (first ++ .object (before ++ (some key, t) :: after) :: others))
      = ofTree? (.list (first ++ .object (before ++ after) :: others)) := by
  have same : ∀ field ∈ record.fields[first.length]?, ∀ d,
      fill field.name d (.object (before ++ (some key, t) :: after))
        = fill field.name d (.object (before ++ after)) := by
    intro field here d
    have allNames : parts.map (·.1) = record.fields.map (·.name) := rfl
    have sameName : field.name = name := by
      have atPlace := congrArg (·[first.length]?) allNames
      simpa [part, Option.mem_def.mp here] using atPlace.symm
    rw [sameName]
    exact fill_insert (List.mem_of_getElem? part) unknown t before after d
  rw [← record_ofTree?, ← record_ofTree?, Record.ofTree?, Record.ofTree?,
    Record.listMeaning_exchange same]

/-- Behind the brace of a record there is room for one more member. -/
theorem Opens.grows {names : List String} {s content : Bytes} {t : Tree} {i : TargetInfo}
    (opens : Opens names s content) (written : Document t s) (meant : ofTree? t = some i)
    {name : String} {value' : Tree} {new behind added : Bytes} (unknown : name ∉ names)
    (isMember : Member (some name, value') new []) (joins : Joins new content behind added) :
    ∃ front t', s = front ++ behind ∧ Document t' (front ++ (added ++ behind)) ∧
      ofTree? t' = some i := by
  cases opens with
  | answer first =>
    obtain ⟨front, rest, rfl, value, exchange⟩ := written.at_value first (atToken_cons rfl _)
    obtain ⟨inside, before, after, rfl, rfl, grown⟩ := value.join isMember joins
    refine ⟨front ++ Ascii.openBrace :: inside, .object (before ++ (some name, value') :: after),
      by simp, by simpa using exchange _ _ grown, ?_⟩
    rw [← record_ofTree?, Record.ofTree?_insert unknown, record_ofTree?, meant]
  | member part first passed space quoted colon between =>
    obtain ⟨front, rest, rfl, value, exchange⟩ := written.at_value first (atToken_cons rfl _)
    obtain ⟨members, rfl, content⟩ := value.object_of_openBrace
    -- An empty object is no answer, and neither is an empty list below.
    cases content with
    | nil => cases meant
    | cons content =>
      have named := named_of_ofTree? meant
      obtain ⟨others, seen, t, unseen, k, rfl, same, value, exchange'⟩ :=
        content.at_value named passed space quoted colon between (atToken_cons rfl _)
      obtain ⟨inside, before, after, rfl, rfl, grown⟩ := value.join isMember joins
      rw [same] at meant
      refine ⟨front ++ Ascii.openBrace :: (others ++ Ascii.openBrace :: inside), _, by simp,
        by simpa using exchange _ _ (.object (exchange' _ _ grown).members), ?_⟩
      rw [ofTree?_exchange_member part unknown, meant]
  | element part first passed space =>
    obtain ⟨front, rest, rfl, value, exchange⟩ := written.at_value first (atToken_cons rfl _)
    obtain ⟨items, rfl, content⟩ := value.list_of_openBracket
    cases content with
    | nil => cases meant
    | cons content =>
      obtain ⟨others, seen, t, unseen, k, rfl, same, long, value, exchange'⟩ :=
        content.at_value passed space (atToken_cons rfl _)
      obtain ⟨inside, before, after, rfl, rfl, grown⟩ := value.join isMember joins
      rw [same] at meant
      rw [← long] at part
      refine ⟨front ++ Ascii.openBracket :: (others ++ Ascii.openBrace :: inside), _, by simp,
        by simpa using exchange _ _ (.list (exchange' _ _ grown).items), ?_⟩
      rw [ofTree?_exchange_element part unknown, meant]

theorem decode_of_gains {s s' : Bytes} {i : TargetInfo} (gains : Gains s s')
    (h : decode s = .ok i) : decode s' = .ok i := by
  obtain ⟨opens, unknown, isMember, joins⟩ := gains
  obtain ⟨t, written, meant⟩ := decode_eq_ok_iff.mp h
  obtain ⟨front, t', split, grown, meant'⟩ := opens.grows written meant unknown isMember joins
  obtain rfl := List.append_cancel_right split
  exact decode_eq_ok_iff.mpr ⟨t', grown, meant'⟩

/-- However many unknown members a text gains, it is decoded to the same. -/
theorem decode_of_reflTransGen_gains {s s' : Bytes} {i : TargetInfo} (h : decode s = .ok i)
    (gains : Relation.ReflTransGen Gains s s') : decode s' = .ok i := by
  induction gains with
  | refl => exact h
  | tail _ step ih => exact decode_of_gains step ih

/-- The beginning of an object with a target, up to the brace that opens the target. -/
def upToTarget : Bytes :=
  [0x7B, 0x22, 0x74, 0x61, 0x72, 0x67, 0x65, 0x74, 0x22, 0x3A, 0x7B]

/-- The members of a target without letters, and both braces behind them. -/
def emptyTriples : Bytes :=
  [0x22, 0x74, 0x72, 0x69, 0x70, 0x6C, 0x65, 0x22, 0x3A, 0x22, 0x22, 0x2C] ++
  [0x22, 0x75, 0x6E, 0x76, 0x65, 0x72, 0x73, 0x69, 0x6F, 0x6E, 0x65, 0x64, 0x54, 0x72, 0x69, 0x70,
    0x6C, 0x65, 0x22, 0x3A, 0x22, 0x22, 0x2C] ++
  [0x22, 0x6D, 0x6F, 0x64, 0x75, 0x6C, 0x65, 0x54, 0x72, 0x69, 0x70, 0x6C, 0x65, 0x22, 0x3A, 0x22,
    0x22, 0x2C] ++
  [0x22, 0x6C, 0x69, 0x62, 0x72, 0x61, 0x72, 0x69, 0x65, 0x73, 0x52, 0x65, 0x71, 0x75, 0x69, 0x72,
    0x65, 0x52, 0x50, 0x61, 0x74, 0x68, 0x22, 0x3A, 0x74, 0x72, 0x75, 0x65, 0x7D, 0x7D]

/-- A string with a byte and half a pair of surrogates that are not text. -/
def brokenText : Bytes := [0x22, 0xFF, 0x5C, 0x75, 0x64, 0x38, 0x30, 0x30, 0x22]

/-- A number beyond all machine numbers. -/
def hugeNumber : Bytes := [0x39, 0x65, 0x39, 0x39, 0x39]

/-- A list of both under an empty name. -/
def stray : Bytes :=
  [0x22, 0x22, 0x3A, 0x5B] ++ (brokenText ++ Ascii.comma :: (hugeNumber ++ [Ascii.closeBracket]))

theorem member_stray : Member (some "", .list [.text none, .number hugeNumber]) stray [] := by
  have broken : ∀ rest, Quoted none (brokenText ++ rest) rest := fun rest =>
    .loose (.plain (by decide) (by decide) (by decide)
      (.unit (u := ((13 * 16 + 8) * 16 + 0) * 16 + 0) (.mk _ rfl rfl rfl rfl) (.close rest)))
  have huge : Number hugeNumber [] :=
    .positive (.mk (.digits (by decide) (.last _ rfl)) (.none _)
      (.plain (.inl rfl) (.cons rfl (.cons rfl (.last _ rfl)))))
  have items : MoreItems [.text none, .number hugeNumber]
      (brokenText ++ Ascii.comma :: (hugeNumber ++ [Ascii.closeBracket])) [] :=
    .cons (.mk (.nil _) (.text (broken _)) (.nil _))
      (.last (.mk (.nil _) (.number _ huge) (.nil _)))
  exact .mk (.nil _) (.strict (.close _)) (.nil _) (.mk (.nil _) (.list items.items) (.nil _))

/-- A target gains the member in front of its first one. -/
theorem gains_stray (content : Bytes) :
    Gains (upToTarget ++ Ascii.doubleQuote :: content)
      (upToTarget ++ (stray ++ [Ascii.comma] ++ Ascii.doubleQuote :: content)) := by
  have quoted : Quoted (some "target") (upToTarget.drop 1 ++ Ascii.doubleQuote :: content)
      (Ascii.colon :: Ascii.openBrace :: Ascii.doubleQuote :: content) :=
    Json.Value.quoted_quote "target" _
  have opens : Opens Target.record.names (upToTarget ++ Ascii.doubleQuote :: content)
      (Ascii.doubleQuote :: content) :=
    .member (.head _) (.nil _) (.nil _) (.nil _) quoted (.nil _) (.nil _)
  exact .mk opens (by decide) member_stray (.front (.nil _) (.nil _) (.nil _))

/-- A target may gain the same stray member twice. -/
theorem decode_of_reflTransGen_gains_stray :
    decode (upToTarget ++ (stray ++ [Ascii.comma] ++ (stray ++ [Ascii.comma] ++ emptyTriples)))
      = .ok { target := ⟨⟨""⟩, ⟨""⟩, ⟨""⟩, true⟩ } := by
  have read : decode (upToTarget ++ emptyTriples)
      = .ok { target := ⟨⟨""⟩, ⟨""⟩, ⟨""⟩, true⟩ } := rfl
  exact decode_of_reflTransGen_gains read (.tail (.single (gains_stray _)) (gains_stray _))

end TargetInfo

end TargetQuery
