import TargetQuery.Json.Value
import TargetQuery.Proofs.Json.ScalarReading

/-!
# Written values and the grammar

Both texts of a value, the compact one and the pretty one, are forms of it in the grammar. Nothing
is asked of the strings: whatever cannot stand for itself is escaped.
-/

namespace TargetQuery.Json

open Grammar Utf8

namespace Value

mutual

/-- The tree that a value is written for. -/
def toTree : Value → Tree
  | .null => .null
  | .bool b => .bool b
  | .text s => .text (some s)
  | .list items => .list (itemTrees items)
  | .object members => .object (memberTrees members)

def itemTrees : List Value → List Tree
  | [] => []
  | v :: more => v.toTree :: itemTrees more

def memberTrees : List (String × Value) → List (Option String × Tree)
  | [] => []
  | (name, v) :: more => (some name, v.toTree) :: memberTrees more

end

mutual

/-- Only text is written, and no number is. -/
theorem legible_toTree (v : Value) : v.toTree.Legible := by
  cases v with
  | null => exact .null
  | bool b => exact .bool b
  | text s => exact .text s
  | list items => exact .list (legible_itemTrees items)
  | object members => exact .object (named_memberTrees members) (legible_memberTrees members)

theorem legible_itemTrees (items : List Value) : ∀ t ∈ itemTrees items, t.Legible := by
  cases items with
  | nil => exact List.forall_mem_nil _
  | cons v more => exact List.forall_mem_cons.mpr ⟨legible_toTree v, legible_itemTrees more⟩

theorem legible_memberTrees (members : List (String × Value)) :
    ∀ m ∈ memberTrees members, m.2.Legible := by
  obtain _ | ⟨⟨name, v⟩, more⟩ := members
  · exact List.forall_mem_nil _
  · exact List.forall_mem_cons.mpr ⟨legible_toTree v, legible_memberTrees more⟩

theorem named_memberTrees (members : List (String × Value)) :
    ∀ m ∈ memberTrees members, m.1.isSome = true := by
  obtain _ | ⟨⟨name, v⟩, more⟩ := members
  · exact List.forall_mem_nil _
  · exact List.forall_mem_cons.mpr ⟨rfl, named_memberTrees more⟩

end

/-! ### Strings -/

/-- The digits of a control character and their values. -/
theorem hexQuad_digits : ∀ n < 0x20, (encodeChars (hexQuad n)).map Ascii.hexValue?
    = [some 0, some 0, some (n / 16), some (n % 16)] := by
  decide

theorem quad_hexQuad {n : Nat} (h : n < 0x20) (rest : Bytes) :
    Quad n (encodeChars (hexQuad n) ++ rest) rest := by
  have digits := hexQuad_digits n h
  obtain ⟨a, s, e, ha, digits⟩ := List.map_eq_cons_iff.mp digits
  obtain ⟨b, s, rfl, hb, digits⟩ := List.map_eq_cons_iff.mp digits
  obtain ⟨c, s, rfl, hc, digits⟩ := List.map_eq_cons_iff.mp digits
  obtain ⟨d, s, rfl, hd, digits⟩ := List.map_eq_cons_iff.mp digits
  rw [e, List.map_eq_nil_iff.mp digits]
  have value := Quad.mk rest ha hb hc hd
  have same : ((0 * 16 + 0) * 16 + n / 16) * 16 + n % 16 = n := by omega
  rw [same] at value
  exact value

/-- A character stands for itself or is escaped. -/
theorem escapeChar_cases (c : Char) (rest : Bytes) :
    (escapeChar c = [c] ∧ 0x20 ≤ c.toNat ∧ c ≠ '"' ∧ c ≠ '\\') ∨
      Escape c (encodeChars (escapeChar c) ++ rest) rest := by
  rw [escapeChar]
  split
  · next e =>
    obtain rfl := eq_of_beq e
    exact .inr (.letter rest .doubleQuote)
  split
  · next e =>
    obtain rfl := eq_of_beq e
    exact .inr (.letter rest .backslash)
  split
  · next e =>
    obtain rfl := eq_of_beq e
    exact .inr (.letter rest .backspace)
  split
  · next e =>
    obtain rfl := eq_of_beq e
    exact .inr (.letter rest .formFeed)
  split
  · next e =>
    obtain rfl := eq_of_beq e
    exact .inr (.letter rest .newline)
  split
  · next e =>
    obtain rfl := eq_of_beq e
    exact .inr (.letter rest .carriageReturn)
  split
  · next e =>
    obtain rfl := eq_of_beq e
    exact .inr (.letter rest .tab)
  split
  · next low =>
    have unit := Escape.unit (quad_hexQuad low rest) (.inl (by omega))
    rw [Char.ofNat_toNat] at unit
    rw [encodeChars_append, List.append_assoc]
    exact .inr unit
  · next notQuote notBackslash _ _ _ _ _ notLow =>
    exact .inl ⟨rfl, by omega, by simpa using notQuote, by simpa using notBackslash⟩

theorem chars_escaped (s : List Char) (rest : Bytes) :
    Chars s (encodeChars (s.flatMap escapeChar) ++ Ascii.doubleQuote :: rest) rest := by
  induction s with
  | nil => exact .close rest
  | cons c s ih =>
    rw [List.flatMap_cons, encodeChars_append, List.append_assoc]
    rcases escapeChar_cases c (encodeChars (s.flatMap escapeChar) ++ Ascii.doubleQuote :: rest)
      with ⟨e, low, notQuote, notBackslash⟩ | h
    · rw [e, encodeChars_cons, encodeChars_nil, List.append_nil]
      exact .plain low notQuote notBackslash ih
    · exact .escape h ih

theorem quoted_quote (s : String) (rest : Bytes) :
    Quoted (some s) (encodeChars (quote s) ++ rest) rest := by
  have chars := chars_escaped s.toList rest
  rw [quote, List.cons_append, encodeChars_cons, encodeChars_append, List.append_assoc,
    List.append_assoc]
  exact .strict chars

/-! ### The compact text -/

mutual

/-- The compact text is a value of the grammar. -/
theorem value_compact (v : Value) (rest : Bytes) :
    Grammar.Value v.toTree (encodeChars v.compact ++ rest) rest := by
  cases v with
  | null => exact .null rest
  | bool b =>
    cases b with
    | true => exact .yes rest
    | false => exact .no rest
  | text s => exact .text (quoted_quote s rest)
  | list items =>
    cases items with
    | nil => exact .list (.nil (.nil _))
    | cons v more =>
      rw [compact, List.cons_append, encodeChars_cons, encodeChars_append, List.append_assoc,
        List.append_assoc]
      exact .list (.cons (items_compact (v :: more) (List.cons_ne_nil _ _) rest))
  | object members =>
    cases members with
    | nil => exact .object (.nil (.nil _))
    | cons m more =>
      rw [compact, List.cons_append, encodeChars_cons, encodeChars_append, List.append_assoc,
        List.append_assoc]
      exact .object (.cons (members_compact (m :: more) (List.cons_ne_nil _ _) rest))

theorem items_compact (items : List Value) (nonempty : items ≠ []) (rest : Bytes) :
    MoreItems (itemTrees items) (encodeChars (compactItems items) ++ Ascii.closeBracket :: rest)
      rest := by
  obtain _ | ⟨v, more⟩ := items
  · exact absurd rfl nonempty
  cases more with
  | nil => exact .last (.mk (.nil _) (value_compact v _) (.nil _))
  | cons w more =>
    have cons : compactItems (v :: w :: more) = compact v ++ ',' :: compactItems (w :: more) := rfl
    rw [cons, encodeChars_append, List.append_assoc]
    exact .cons (.mk (.nil _) (value_compact v _) (.nil _))
      (items_compact (w :: more) (List.cons_ne_nil _ _) rest)

theorem members_compact (members : List (String × Value)) (nonempty : members ≠ [])
    (rest : Bytes) :
    MoreMembers (memberTrees members)
      (encodeChars (compactMembers members) ++ Ascii.closeBrace :: rest) rest := by
  obtain _ | ⟨⟨name, v⟩, more⟩ := members
  · exact absurd rfl nonempty
  cases more with
  | nil =>
    rw [compactMembers, encodeChars_append, List.append_assoc]
    exact .last (.mk (.nil _) (quoted_quote name _) (.nil _)
      (.mk (.nil _) (value_compact v _) (.nil _)))
  | cons w more =>
    have cons : compactMembers ((name, v) :: w :: more)
      = quote name ++ ':' :: compact v ++ ',' :: compactMembers (w :: more) := rfl
    simp only [cons, encodeChars_append, List.append_assoc]
    exact .cons (.mk (.nil _) (quoted_quote name _) (.nil _)
      (.mk (.nil _) (value_compact v _) (.nil _)))
        (members_compact (w :: more) (List.cons_ne_nil _ _) rest)

end

/-! ### The pretty text -/

theorem blank_newLine (level : Nat) (s : Bytes) : Blank (encodeChars (newLine level) ++ s) s := by
  have spaces : ∀ n, Blank (encodeChars (List.replicate n ' ') ++ s) s := by
    intro n
    induction n with
    | zero => exact .nil s
    | succ n ih => exact .cons (by decide) ih
  exact .cons (by decide) (spaces (2 * level))

/-- A space behind a colon. -/
theorem blank_space (s : Bytes) : Blank (encodeChar ' ' ++ s) s := .cons (by decide) (.nil s)

mutual

/-- The indented text is a value of the grammar, at every level. -/
theorem value_pretty (level : Nat) (v : Value) (rest : Bytes) :
    Grammar.Value v.toTree (encodeChars (v.pretty level) ++ rest) rest := by
  cases v with
  | null => exact .null rest
  | bool b =>
    cases b with
    | true => exact .yes rest
    | false => exact .no rest
  | text s => exact .text (quoted_quote s rest)
  | list items =>
    cases items with
    | nil => exact .list (.nil (.nil _))
    | cons v more =>
      have cons : pretty level (.list (v :: more))
        = '[' :: (prettyItems (level + 1) (v :: more) ++ newLine level ++ [']']) := rfl
      rw [cons, encodeChars_cons, encodeChars_append, encodeChars_append]
      simp only [List.append_assoc]
      exact .list (.cons
        (items_pretty (level + 1) (v :: more) (List.cons_ne_nil _ _) (blank_newLine level _)))
  | object members =>
    cases members with
    | nil => exact .object (.nil (.nil _))
    | cons m more =>
      have cons : pretty level (.object (m :: more)) = Char.ofNat 0x7B ::
        (prettyMembers (level + 1) (m :: more) ++ newLine level ++ [Char.ofNat 0x7D]) := rfl
      rw [cons, encodeChars_cons, encodeChars_append, encodeChars_append]
      simp only [List.append_assoc]
      exact .object (.cons
        (members_pretty (level + 1) (m :: more) (List.cons_ne_nil _ _) (blank_newLine level _)))

theorem items_pretty (level : Nat) (items : List Value) (nonempty : items ≠ []) {s rest : Bytes}
    (close : Blank s (Ascii.closeBracket :: rest)) :
    MoreItems (itemTrees items) (encodeChars (prettyItems level items) ++ s) rest := by
  obtain _ | ⟨v, more⟩ := items
  · exact absurd rfl nonempty
  cases more with
  | nil =>
    rw [prettyItems, encodeChars_append, List.append_assoc]
    exact .last (.mk (blank_newLine level _) (value_pretty level v s) close)
  | cons w more =>
    have cons : prettyItems level (v :: w :: more)
      = newLine level ++ pretty level v ++ ',' :: prettyItems level (w :: more) := rfl
    simp only [cons, encodeChars_append, List.append_assoc]
    exact .cons (.mk (blank_newLine level _) (value_pretty level v _) (.nil _))
      (items_pretty level (w :: more) (List.cons_ne_nil _ _) close)

theorem members_pretty (level : Nat) (members : List (String × Value)) (nonempty : members ≠ [])
    {s rest : Bytes} (close : Blank s (Ascii.closeBrace :: rest)) :
    MoreMembers (memberTrees members) (encodeChars (prettyMembers level members) ++ s) rest := by
  obtain _ | ⟨⟨name, v⟩, more⟩ := members
  · exact absurd rfl nonempty
  cases more with
  | nil =>
    rw [prettyMembers]
    simp only [encodeChars_append, encodeChars_cons, List.append_assoc]
    exact .last (.mk (blank_newLine level _) (quoted_quote name _) (.nil _)
      (.mk (blank_space _) (value_pretty level v s) close))
  | cons w more =>
    have cons : prettyMembers level ((name, v) :: w :: more)
      = newLine level ++ quote name ++ ':' :: ' ' :: pretty level v
        ++ ',' :: prettyMembers level (w :: more) := rfl
    simp only [cons, encodeChars_append, encodeChars_cons, List.append_assoc]
    exact .cons (.mk (blank_newLine level _) (quoted_quote name _) (.nil _)
      (.mk (blank_space _) (value_pretty level v _) (.nil _)))
        (members_pretty level (w :: more) (List.cons_ne_nil _ _) close)

end

/-! ### Whole texts -/

theorem document_toCompact (v : Value) : Document v.toTree (encode v.toCompact) := by
  have value := value_compact v []
  rw [List.append_nil] at value
  rw [encode, toCompact, String.toList_ofList]
  exact .mk (.nil _) value (.nil _)

theorem document_toPretty (v : Value) : Document v.toTree (encode v.toPretty) := by
  have value := value_pretty 0 v []
  rw [List.append_nil] at value
  rw [encode, toPretty, String.toList_ofList]
  exact .mk (.nil _) value (.nil _)

/-- The pretty text as a line of its own. -/
theorem document_toPretty_line (v : Value) : Document v.toTree (encode (v.toPretty ++ "\n")) := by
  have line : encode (v.toPretty ++ "\n") = encodeChars (v.pretty 0) ++ [0x0A] := by
    rw [encode_append, encode, toPretty, String.toList_ofList]
    rfl
  rw [line]
  exact .mk (.nil _) (value_pretty 0 v [0x0A]) (.cons (by decide) (.nil _))

end Value

end TargetQuery.Json
