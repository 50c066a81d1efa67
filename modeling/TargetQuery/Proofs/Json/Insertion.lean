import TargetQuery.Proofs.Json.GrammarFrames
import TargetQuery.Proofs.Json.RecordReading

/-!
# Members in the midst of a text

One more member can be written at any place between the members of an object. Where the parts of a
text end does not depend on who looks: white space, names and values that were seen to end somewhere
end there in every reading. So the text around such a place is a text with a hole, and what is
written into the hole changes the tree there and nowhere else.
-/

namespace TargetQuery.Json

open Grammar Reader

/-- A reader comes to one end only. -/
theorem Reads.unique {α : Type} {r : Reader α} {s rest rest' : Bytes} {x y : α}
    (h : Reads r s x rest) (h' : Reads r s y rest') : x = y ∧ rest = rest' := by
  obtain ⟨m, run⟩ := h 0
  obtain ⟨m', run'⟩ := h' 0
  rw [run, Except.ok.injEq, Prod.mk.injEq, Cursor.mk.injEq] at run'
  exact ⟨run'.1, run'.2.2⟩

namespace Grammar

variable {s a b rest : Bytes}

/-! ### Where a part ends -/

/-- White space reaches from one end that was found to a later one, which is at a token. -/
theorem Blank.between (h : Blank s a) (h' : Blank s b) (stop : AtToken b) : Blank a b := by
  induction h with
  | nil => exact h'
  | cons space _ ih =>
    cases h' with
    | nil => simp [stop _ rfl] at space
    | cons _ h' => exact ih h'

theorem Blank.unique (h : Blank s a) (h' : Blank s b) (stop : AtToken a) (stop' : AtToken b) :
    a = b :=
  ((h.between h' stop').eq_of_atToken stop).symm

theorem Quoted.atToken {t : Option String} (h : Quoted t s rest) : AtToken s := by
  obtain ⟨a, rfl, -⟩ := h.looseChars
  exact atToken_cons rfl _

/-- A string ends at its closing quote, whether it is text or not. -/
theorem Quoted.unique {t t' : Option String} (h : Quoted t s a) (h' : Quoted t' s b) : a = b := by
  obtain ⟨more, rfl, loose⟩ := h.looseChars
  obtain ⟨more', same, loose'⟩ := h'.looseChars
  obtain ⟨-, rfl⟩ := List.cons.inj same
  rw [← looseRest_eq_some_iff] at loose loose'
  exact Option.some.inj (loose.symm.trans loose')

/-- A string that is text is one text only. -/
theorem Quoted.text_unique {t t' : String} (h : Quoted (some t) s a) (h' : Quoted (some t') s b) :
    t = t' := by
  obtain ⟨more, rfl, chars⟩ := quoted_head h
  obtain ⟨more', same, chars'⟩ := quoted_head h'
  obtain ⟨-, rfl⟩ := List.cons.inj same
  have read : Reads stringToken more t a := stringToken_of_chars chars
  exact (read.unique (stringToken_of_chars chars')).1

/-- A value ends where it is skipped to. -/
theorem Value.unique {t t' : Tree} (h : Value t s a) (h' : Value t' s b) (stop : Delimited a)
    (stop' : Delimited b) : a = b := by
  have skips : Reads skipValue s () a := skipValue_of_value (.nil s) h stop
  exact (skips.unique (skipValue_of_value (.nil s) h' stop')).2

/-! ### White space around members and elements -/

theorem Element.blank_behind {t : Tree} (h : Element t s a) (more : Blank a b) : Element t s b := by
  obtain ⟨before, value, after⟩ := h
  exact .mk before value (after.trans more)

theorem Member.blank_behind {m : Option String × Tree} (h : Member m s a) (more : Blank a b) :
    Member m s b := by
  obtain ⟨before, name, colon, value⟩ := h
  exact .mk before name colon (value.blank_behind more)

theorem Member.blank_before {m : Option String × Tree} (more : Blank s a) (h : Member m a b) :
    Member m s b := by
  obtain ⟨before, name, colon, value⟩ := h
  exact .mk (more.trans before) name colon value

theorem MoreMembers.exists_cons {members : MemberList} (h : MoreMembers members s rest) :
    ∃ name t others, members = (name, t) :: others := by
  cases h <;> exact ⟨_, _, _, rfl⟩

theorem MoreItems.exists_cons {items : List Tree} (h : MoreItems items s rest) :
    ∃ t others, items = t :: others := by
  cases h <;> exact ⟨_, _, rfl⟩

/-- A member goes on in the midst of the white space before it. -/
theorem MoreMembers.of_blank {members : MemberList} (h : MoreMembers members s rest)
    (more : Blank s a) : MoreMembers members a rest := by
  obtain ⟨name, t, others, rfl⟩ := h.exists_cons
  obtain ⟨x, b, c, d, e, before, quoted, h⟩ := moreMembers_cons_iff.mp h
  exact moreMembers_cons_iff.mpr ⟨x, b, c, d, e, more.between before quoted.atToken, quoted, h⟩

/-! ### Entries one by one -/

theorem MembersFrom.of_blank {members : MemberList} (h : MembersFrom false members s rest)
    (more : Blank s a) : MembersFrom false members a rest := by
  obtain ⟨none, closes⟩ | ⟨b, comma, others⟩ := h
  · exact .inl ⟨none, more.between closes (atToken_cons rfl _)⟩
  · exact .inr ⟨b, more.between comma (atToken_cons rfl _), others⟩

theorem ItemsFrom.of_blank {items : List Tree} (h : ItemsFrom false items s rest)
    (more : Blank s a) : ItemsFrom false items a rest := by
  obtain ⟨none, closes⟩ | ⟨b, comma, others⟩ := h
  · exact .inl ⟨none, more.between closes (atToken_cons rfl _)⟩
  · exact .inr ⟨b, more.between comma (atToken_cons rfl _), others⟩

theorem MembersFrom.behind_comma {members : MemberList}
    (h : MembersFrom false members (Ascii.comma :: a) rest) : MoreMembers members a rest := by
  obtain ⟨-, closes⟩ | ⟨b, comma, others⟩ := h
  · cases closes.eq_of_atToken (atToken_cons rfl _)
  · obtain ⟨-, rfl⟩ := List.cons.inj (comma.eq_of_atToken (atToken_cons rfl _))
    exact others

theorem ItemsFrom.behind_comma {items : List Tree}
    (h : ItemsFrom false items (Ascii.comma :: a) rest) : MoreItems items a rest := by
  obtain ⟨-, closes⟩ | ⟨b, comma, others⟩ := h
  · cases closes.eq_of_atToken (atToken_cons rfl _)
  · obtain ⟨-, rfl⟩ := List.cons.inj (comma.eq_of_atToken (atToken_cons rfl _))
    exact others

/-- The name of the first member stands where one was seen, and the value stands behind it. -/
theorem MoreMembers.behind_name {key name : Option String} {t : Tree} {others : MemberList}
    {c d : Bytes} (h : MoreMembers ((key, t) :: others) s rest) (before : Blank s a)
    (quoted : Quoted name a c) (colon : Blank c (Ascii.colon :: d)) :
    Quoted key a c ∧ ∃ x k, Blank d x ∧ Value t x k ∧ MembersFrom false others k rest := by
  obtain ⟨a', c', d', x, k, before', quoted', colon', between, value, more⟩ :=
    moreMembers_cons_iff.mp h
  obtain rfl := before.unique before' quoted.atToken quoted'.atToken
  obtain rfl := quoted.unique quoted'
  obtain ⟨-, rfl⟩ := List.cons.inj
    (colon.unique colon' (atToken_cons rfl _) (atToken_cons rfl _))
  exact ⟨quoted', x, k, between, value, more⟩

/-- Where some member is seen to end, the first member ends, and the others go on. -/
theorem MoreMembers.uncons {m m' : Option String × Tree} {members : MemberList}
    (h : MoreMembers (m :: members) s rest) (seen : Member m' s a) (stop : Delimited a) :
    Member m s a ∧ MembersFrom false members a rest := by
  obtain ⟨before, name, colon, ⟨between, value, after⟩⟩ := seen
  obtain ⟨name', x, k, between', value', others⟩ := h.behind_name before name colon
  obtain rfl := between.unique between' value.atToken value'.atToken
  obtain rfl := value'.unique value others.delimited (after.delimited stop)
  exact ⟨.mk before name' colon (.mk between value' after), others.of_blank after⟩

theorem MoreItems.uncons {t t' : Tree} {items : List Tree} (h : MoreItems (t :: items) s rest)
    (seen : Element t' s a) (stop : Delimited a) :
    Element t s a ∧ ItemsFrom false items a rest := by
  obtain ⟨x, b, before, value, others⟩ := moreItems_cons_iff.mp h
  obtain ⟨before', value', after⟩ := seen
  obtain rfl := before.unique before' value.atToken value'.atToken
  obtain rfl := value.unique value' others.delimited (after.delimited stop)
  exact ⟨.mk before value after, others.of_blank after⟩

theorem moreMembers_of_member {m : Option String × Tree} {members : MemberList}
    (h : Member m s a) (others : MembersFrom false members a rest) :
    MoreMembers (m :: members) s rest := by
  obtain ⟨rfl, closes⟩ | ⟨b, comma, others⟩ := others
  · exact .last (h.blank_behind closes)
  · exact .cons (h.blank_behind comma) others

/-! ### Entries that are passed -/

inductive Passed {α : Type} (entry : α → Bytes → Bytes → Prop) : List α → Bytes → Bytes → Prop
  | nil (s : Bytes) : Passed entry [] s s
  | cons {x : α} {more : List α} {s a rest : Bytes} : entry x s (Ascii.comma :: a) →
      Passed entry more a rest → Passed entry (x :: more) s rest

theorem Framed.passed {α : Type} {entry : α → Bytes → Bytes → Prop}
    (framed : ∀ x, Framed (entry x)) (passed : List α) : Framed (Passed entry passed) := by
  intro s rest h
  induction h with
  | nil s => exact ⟨[], rfl, .nil⟩
  | cons here _ ih =>
    obtain ⟨later, rfl, frame⟩ := ih
    obtain ⟨token, rfl, frameHere⟩ := framed _ _ _ here
    refine ⟨token ++ Ascii.comma :: later, by simp, fun more => ?_⟩
    rw [List.append_assoc, List.cons_append]
    exact .cons (frameHere _) (frame more)

theorem MoreMembers.append {before after : MemberList} (h : Passed Member before s a)
    (more : MoreMembers after a rest) : MoreMembers (before ++ after) s rest := by
  induction h with
  | nil => exact more
  | cons here _ ih => exact .cons here (ih more)

theorem MoreItems.append {before after : List Tree} (h : Passed Element before s a)
    (more : MoreItems after a rest) : MoreItems (before ++ after) s rest := by
  induction h with
  | nil => exact more
  | cons here _ ih => exact .cons here (ih more)

/-- A comma between members is one wherever it is seen. -/
theorem MoreMembers.split {members seen : MemberList} (h : MoreMembers members s rest)
    (passed : Passed Member seen s a) :
    ∃ before after, members = before ++ after ∧ Passed Member before s a ∧
      MoreMembers after a rest := by
  induction passed generalizing members with
  | nil s => exact ⟨[], members, rfl, .nil s, h⟩
  | cons here _ ih =>
    obtain ⟨name, t, others, rfl⟩ := h.exists_cons
    obtain ⟨first, more⟩ := h.uncons here (delimited_cons (by decide) _)
    obtain ⟨before, after, rfl, passed, behind⟩ := ih more.behind_comma
    exact ⟨(name, t) :: before, after, rfl, .cons first passed, behind⟩

theorem MoreItems.split {items seen : List Tree} (h : MoreItems items s rest)
    (passed : Passed Element seen s a) :
    ∃ before after, items = before ++ after ∧ before.length = seen.length ∧
      Passed Element before s a ∧ MoreItems after a rest := by
  induction passed generalizing items with
  | nil s => exact ⟨[], items, rfl, rfl, .nil s, h⟩
  | cons here _ ih =>
    obtain ⟨t, others, rfl⟩ := h.exists_cons
    obtain ⟨first, more⟩ := h.uncons here (delimited_cons (by decide) _)
    obtain ⟨before, after, rfl, same, passed, behind⟩ := ih more.behind_comma
    exact ⟨t :: before, after, rfl, congrArg (· + 1) same, .cons first passed, behind⟩

/-! ### One more member -/

/-- A member comes to stand at some place among the members that begin with the text, and with it a
comma where there are others: in front of a member the comma comes behind the new one, and behind a
member it comes before it. The text from that place on is left as it is. -/
inductive Joins (new : Bytes) : Bytes → Bytes → Bytes → Prop
  | front {passed : MemberList} {s a behind more : Bytes} : Passed Member passed s a →
      Blank a behind → Blank behind (Ascii.doubleQuote :: more) →
      Joins new s behind (new ++ [Ascii.comma])
  | back {passed : MemberList} {m : Option String × Tree} {s a behind : Bytes} :
      Passed Member passed s a → Member m a behind → Delimited behind →
      Joins new s behind (Ascii.comma :: new)
  | alone {s behind more : Bytes} : Blank s behind → Blank behind (Ascii.closeBrace :: more) →
      Joins new s behind new

/-- Where a member begins, no object ends. -/
theorem Member.not_closes {m : Option String × Tree} {more : Bytes} (h : Member m s rest) :
    ¬ Blank s (Ascii.closeBrace :: more) := by
  intro closes
  obtain ⟨before, quoted, colon, value⟩ := h
  obtain ⟨a, rfl, -⟩ := quoted.looseChars
  cases before.unique closes quoted.atToken (atToken_cons rfl _)

theorem MoreMembers.not_closes {members : MemberList} {more : Bytes}
    (h : MoreMembers members s rest) : ¬ Blank s (Ascii.closeBrace :: more) := by
  cases h with
  | last here | cons here _ => exact here.not_closes

theorem MoreMembers.members {members : MemberList} (h : MoreMembers members s rest) :
    Members members s rest := by
  cases h with
  | last here => exact .cons (.last here)
  | cons here more => exact .cons (.cons here more)

/-- One more member among the members of an object. -/
theorem MoreMembers.join {members : MemberList} {x : Option String × Tree}
    {new behind added : Bytes} (h : MoreMembers members s rest) (isMember : Member x new [])
    (joins : Joins new s behind added) :
    ∃ front before after, s = front ++ behind ∧ members = before ++ after ∧
      MoreMembers (before ++ x :: after) (front ++ (added ++ behind)) rest := by
  obtain ⟨token, same, written⟩ := isMember.framed
  rw [List.append_nil] at same
  subst same
  cases joins with
  | front passed blank quote =>
    obtain ⟨before, after, rfl, passed, others⟩ := h.split passed
    obtain ⟨front, rfl, frame⟩ := Framed.passed (fun _ _ _ h => h.framed) _ _ _ passed
    obtain ⟨spaces, rfl, frameSpaces⟩ := Framed.blank _ _ blank
    refine ⟨front ++ spaces, before, after, by rw [List.append_assoc], rfl, ?_⟩
    rw [List.append_assoc, List.append_assoc new]
    have here := (written (Ascii.comma :: behind)).blank_before (frameSpaces _)
    exact MoreMembers.append (frame _) (.cons here (others.of_blank blank))
  | back passed member stop =>
    obtain ⟨before, after, rfl, passed, others⟩ := h.split passed
    obtain ⟨name, t, after, rfl⟩ := others.exists_cons
    obtain ⟨last, more⟩ := others.uncons member stop
    obtain ⟨front, rfl, frame⟩ := Framed.passed (fun _ _ _ h => h.framed) _ _ _ passed
    obtain ⟨text, rfl, frameLast⟩ := last.framed
    refine ⟨front ++ text, before ++ [(name, t)], after, by rw [List.append_assoc], by simp, ?_⟩
    rw [List.append_assoc, List.append_assoc, List.cons_append]
    have here := moreMembers_of_member (written behind) more
    exact MoreMembers.append (frame _) (.cons (frameLast _) here)
  | alone blank closes => exact absurd (blank.trans closes) h.not_closes

/-- One more member can be put between the others, with a comma. -/
theorem Members.join {members : MemberList} {x : Option String × Tree} {new behind added : Bytes}
    (h : Members members s rest) (isMember : Member x new []) (joins : Joins new s behind added) :
    ∃ front before after, s = front ++ behind ∧ members = before ++ after ∧
      Members (before ++ x :: after) (front ++ (added ++ behind)) rest := by
  cases h with
  | cons h =>
    obtain ⟨front, before, after, split, same, joined⟩ := h.join isMember joins
    exact ⟨front, before, after, split, same, joined.members⟩
  | nil closes =>
    cases joins with
    | front passed blank quote =>
      cases passed with
      | nil =>
        cases (blank.trans quote).unique closes (atToken_cons rfl _)
          (atToken_cons rfl _)
      | cons here _ => exact absurd closes here.not_closes
    | back passed member _ =>
      cases passed with
      | nil => exact absurd closes member.not_closes
      | cons here _ => exact absurd closes here.not_closes
    | alone blank _ =>
      obtain ⟨token, same, written⟩ := isMember.framed
      rw [List.append_nil] at same
      subst same
      have behind := blank.between closes (atToken_cons rfl _)
      obtain ⟨spaces, rfl, frame⟩ := Framed.blank _ _ blank
      have here := ((written _).blank_behind behind).blank_before (frame _)
      exact ⟨spaces, [], [], rfl, rfl, .cons (.last here)⟩

/-! ### Parts exchanged for others -/

theorem Document.at_value {t : Tree} (h : Document t s) (before : Blank s a) (stop : AtToken a) :
    ∃ front rest, s = front ++ a ∧ Value t a rest ∧
      ∀ t' a', Value t' a' rest → Document t' (front ++ a') := by
  obtain ⟨before', value, after⟩ := h
  obtain rfl := before.unique before' stop value.atToken
  obtain ⟨front, rfl, frame⟩ := Framed.blank _ _ before
  exact ⟨front, _, rfl, value, fun t' a' value' => .mk (frame a') value' after⟩

/-- The value of a member can be exchanged for another one. -/
theorem MoreMembers.at_value {members seen : MemberList} {name : String} {c d e : Bytes}
    (h : MoreMembers members s rest) (named : MemberList.named members = true)
    (passed : Passed Member seen s a) (before : Blank a b) (quoted : Quoted (some name) b c)
    (colon : Blank c (Ascii.colon :: d)) (between : Blank d e) (stop : AtToken e) :
    ∃ front first t others k, s = front ++ e ∧ members = first ++ (some name, t) :: others ∧
      Value t e k ∧ ∀ t' e', Value t' e' k →
        MoreMembers (first ++ (some name, t') :: others) (front ++ e') rest := by
  obtain ⟨first, after, rfl, passed, others⟩ := h.split passed
  obtain ⟨key, t, others', rfl⟩ := others.exists_cons
  obtain ⟨quoted', x, k, between', value, more⟩ := others.behind_name before quoted colon
  obtain ⟨key, rfl⟩ : ∃ text, key = some text := by
    simp only [MemberList.named, List.all_append, List.all_cons, Bool.and_eq_true] at named
    exact Option.isSome_iff_exists.mp named.2.1
  obtain rfl := quoted.text_unique quoted'
  obtain rfl := between.unique between' stop value.atToken
  obtain ⟨front, rfl, frame⟩ := Framed.passed (fun _ _ _ h => h.framed) _ _ _ passed
  obtain ⟨p, rfl, frameBefore⟩ := Framed.blank _ _ before
  obtain ⟨q, rfl, frameQuoted⟩ := Framed.quoted _ _ _ quoted
  obtain ⟨u, rfl, frameColon⟩ := Framed.blank _ _ colon
  obtain ⟨v, rfl, frameBetween⟩ := Framed.blank _ _ between
  refine ⟨front ++ (p ++ (q ++ (u ++ Ascii.colon :: v))), first, t, others', k, by simp, rfl, value,
    fun t' e' value' => ?_⟩
  simp only [List.append_assoc, List.cons_append]
  exact MoreMembers.append (frame _) (moreMembers_cons_iff.mpr
    ⟨_, _, _, _, _, frameBefore _, frameQuoted _, frameColon _, frameBetween _, value', more⟩)

/-- An element can be exchanged for another one. -/
theorem MoreItems.at_value {items seen : List Tree} (h : MoreItems items s rest)
    (passed : Passed Element seen s a) (before : Blank a b) (stop : AtToken b) :
    ∃ front first t others k, s = front ++ b ∧ items = first ++ t :: others ∧
      first.length = seen.length ∧ Value t b k ∧ ∀ t' b', Value t' b' k →
        MoreItems (first ++ t' :: others) (front ++ b') rest := by
  obtain ⟨first, after, rfl, same, passed, others⟩ := h.split passed
  obtain ⟨t, others', rfl⟩ := others.exists_cons
  obtain ⟨x, k, before', value, more⟩ := moreItems_cons_iff.mp others
  obtain rfl := before.unique before' stop value.atToken
  obtain ⟨front, rfl, frame⟩ := Framed.passed (fun _ _ _ h => h.framed) _ _ _ passed
  obtain ⟨p, rfl, frameBefore⟩ := Framed.blank _ _ before
  refine ⟨front ++ p, first, t, others', k, by simp, rfl, same, value, fun t' b' value' => ?_⟩
  rw [List.append_assoc]
  exact MoreItems.append (frame _) (moreItems_cons_iff.mpr ⟨_, _, frameBefore _, value', more⟩)

theorem MoreItems.items {items : List Tree} (h : MoreItems items s rest) : Items items s rest := by
  cases h with
  | last here => exact .cons (.last here)
  | cons here more => exact .cons (.cons here more)

theorem Value.object_of_openBrace {t : Tree} (h : Value t (Ascii.openBrace :: s) rest) :
    ∃ members, t = .object members ∧ Members members s rest := by
  obtain ⟨b, more, same, opens⟩ := h.head
  obtain ⟨rfl, rfl⟩ := List.cons.inj same
  obtain ⟨members, rfl⟩ := opens.kind.2.2.2.2.2 rfl
  cases h with
  | object h => exact ⟨members, rfl, h⟩

theorem Value.list_of_openBracket {t : Tree} (h : Value t (Ascii.openBracket :: s) rest) :
    ∃ items, t = .list items ∧ Items items s rest := by
  obtain ⟨b, more, same, opens⟩ := h.head
  obtain ⟨rfl, rfl⟩ := List.cons.inj same
  obtain ⟨items, rfl⟩ := opens.kind.2.2.2.2.1 rfl
  cases h with
  | list h => exact ⟨items, rfl, h⟩

/-- One more member in an object. -/
theorem Value.join {t : Tree} {x : Option String × Tree} {new behind added : Bytes}
    (h : Value t (Ascii.openBrace :: s) rest) (isMember : Member x new [])
    (joins : Joins new s behind added) :
    ∃ front before after, s = front ++ behind ∧ t = .object (before ++ after) ∧
      Value (.object (before ++ x :: after)) (Ascii.openBrace :: (front ++ (added ++ behind)))
        rest := by
  obtain ⟨members, rfl, content⟩ := h.object_of_openBrace
  obtain ⟨front, before, after, split, rfl, joined⟩ := content.join isMember joins
  exact ⟨front, before, after, split, rfl, .object joined⟩

end Grammar

/-! ### Meanings -/

theorem foldTree_append {σ : Type} (meaning : MemberMeaning σ) (d : σ)
    (before after : MemberList) : foldTree meaning d (before ++ after)
      = foldTree meaning d before >>= fun d => foldTree meaning d after :=
  List.foldlM_append

namespace Record

variable {σ α : Type} {r : Record σ α} {fill : FieldMeaning σ}

def names (r : Record σ α) : List String := r.fields.map (·.name)

theorem memberMeaning_of_unknown {name : String} (unknown : name ∉ r.names) (d : σ) (t : Tree) :
    r.memberMeaning fill d name t = some d := by
  have absent : r.fields.find? (·.name == name) = none := by
    rw [List.find?_eq_none]
    intro field member same
    exact unknown (eq_of_beq same ▸ List.mem_map_of_mem member)
  rw [memberMeaning, absent]

/-- A member that is no field is nothing to the record. -/
theorem ofTree?_insert {name : String} (unknown : name ∉ r.names) (t : Tree)
    (before after : MemberList) :
    r.ofTree? fill (.object (before ++ (some name, t) :: after))
      = r.ofTree? fill (.object (before ++ after)) := by
  simp only [ofTree?, foldTree_append, foldTree_cons, memberMeaning_of_unknown unknown,
    Option.bind_eq_bind, Option.bind_some]

/-- Values with the same meaning can be exchanged under a name. -/
theorem ofTree?_exchange {name : String} {t t' : Tree}
    (same : ∀ d, fill name d t' = fill name d t) (before after : MemberList) :
    r.ofTree? fill (.object (before ++ (some name, t') :: after))
      = r.ofTree? fill (.object (before ++ (some name, t) :: after)) := by
  have meanings : ∀ d, r.memberMeaning fill d name t' = r.memberMeaning fill d name t := by
    intro d
    rw [memberMeaning, memberMeaning]
    cases found : r.fields.find? (·.name == name) with
    | none => rfl
    | some field =>
      obtain ⟨-, rfl⟩ := find?_eq_some found
      simp only [same]
  simp only [ofTree?, foldTree_append, foldTree_cons, meanings]

/-- Elements with the same meaning as a field can be exchanged. -/
theorem listMeaning_exchange {fields : List (RecordField σ)} {t t' : Tree} {before : List Tree}
    (same : ∀ field ∈ fields[before.length]?, ∀ d, fill field.name d t' = fill field.name d t)
    (after : List Tree) (d : σ) :
    listMeaning fill fields d (before ++ t' :: after)
      = listMeaning fill fields d (before ++ t :: after) := by
  induction before generalizing fields d with
  | nil =>
    cases fields with
    | nil => rfl
    | cons field fields =>
      simp only [List.nil_append, listMeaning, same field rfl]
  | cons x before ih =>
    cases fields with
    | nil => rfl
    | cons field fields =>
      simp only [List.cons_append, listMeaning]
      exact bind_congr fun d => ih same d

end Record

end TargetQuery.Json
