import TargetQuery.Proofs.Toml.Text
import TargetQuery.Settings.Toml

/-!
# A table of texts

A document that is one header with a line for each member, all of them texts, is read as one table
with these members, in their order.
-/

namespace TargetQuery.Toml

/-- A name that is written as a key without quotes. -/
structure IsBareKey (name : String) : Prop where
  nonempty : name.toList ≠ []
  bare : ∀ c ∈ name.toList, isBare c = true

theorem isBareKey_of_all {name : String} (nonempty : name.toList ≠ [])
    (bare : name.toList.all isBare = true) : IsBareKey name :=
  ⟨nonempty, List.all_eq_true.mp bare⟩

theorem not_isBlank_of_isBare {c : Char} (bare : isBare c = true) :
    (c == ' ' || c == '\t') = false := by
  by_contra blank
  simp only [Bool.not_eq_false, Bool.or_eq_true, beq_iff_eq] at blank
  obtain rfl | rfl := blank <;> exact absurd bare (by decide)

theorem skipBlanks_cons {c : Char} (h : (c == ' ' || c == '\t') = false) (rest : List Char) :
    skipBlanks (c :: rest) = c :: rest := by
  rw [skipBlanks, List.dropWhile_cons, h]
  rfl

variable {name : String} {rest : List Char}

theorem keyPart_of_isBareKey (isKey : IsBareKey name)
    (ends : ∀ c, rest.head? = some c → isBare c = false) :
    keyPart (name.toList ++ rest) = some (name, rest) := by
  have taken : (name.toList ++ rest).takeWhile isBare = name.toList := by
    have stops : rest.takeWhile isBare = [] := by
      cases rest with
      | nil => rfl
      | cons c rest => simpa [List.takeWhile_cons] using ends c rfl
    rw [List.takeWhile_append_of_pos isKey.bare, stops, List.append_nil]
  obtain ⟨c, cs, chars⟩ := List.exists_cons_of_ne_nil isKey.nonempty
  have bare : isBare c = true := isKey.bare c (by simp [chars])
  rw [keyPart.eq_def]
  split
  · next h =>
    rw [chars] at h
    obtain rfl := (List.cons.inj h).1
    exact absurd bare (by decide)
  · next h =>
    rw [chars] at h
    obtain rfl := (List.cons.inj h).1
    exact absurd bare (by decide)
  · simp [taken, isKey.nonempty]

/-- A single part is a key if no dot follows. -/
theorem key_of_isBareKey (isKey : IsBareKey name)
    (ends : ∀ c, rest.head? = some c → isBare c = false) {more : List Char}
    (blanks : skipBlanks rest = more) (undotted : more.head? ≠ some '.') :
    key (name.toList ++ rest) = some ([name], more) := by
  obtain ⟨c, cs, chars⟩ := List.exists_cons_of_ne_nil isKey.nonempty
  have bare : isBare c = true := isKey.bare c (by simp [chars])
  have start : skipBlanks (name.toList ++ rest) = name.toList ++ rest := by
    rw [chars, List.cons_append, skipBlanks_cons (not_isBlank_of_isBare bare)]
  rw [key, maxDepth, keyParts, start, keyPart_of_isBareKey isKey ends]
  simp only [bind, Option.bind, blanks]
  split
  · next h => simp at undotted
  · rfl

/-- What is written as a value begins with a quote. -/
theorem exists_quote_eq_cons (s : List Char) :
    ∃ t, quote s = '"' :: t ∨ quote s = '\'' :: t := by
  rw [quote, Form.render]
  cases Form.choose s with
  | basic => exact ⟨_, .inl rfl⟩
  | literal => exact ⟨_, .inr rfl⟩
  | multiBasic => exact ⟨_, .inl rfl⟩
  | multiLiteral => exact ⟨_, .inr rfl⟩

/-- A quoted text is a value. -/
theorem value_quote (room : Nat) (text : String) (rest : List Char) :
    value room (quote text.toList ++ '\n' :: rest) = some (.text text, '\n' :: rest) := by
  have scalar_ : scalar (quote text.toList ++ '\n' :: rest) = some (.text text, '\n' :: rest) := by
    rw [scalar, readText_quote text.toList (by simp) (by simp)]
    simp [bind, Option.bind]
  cases room with
  | zero => exact scalar_
  | succ room =>
    obtain ⟨t, h | h⟩ := exists_quote_eq_cons text.toList
    · rw [h] at scalar_ ⊢
      exact scalar_
    · rw [h] at scalar_ ⊢
      exact scalar_

def line (name text : String) : List Char :=
  name.toList ++ [' ', '=', ' '] ++ quote text.toList ++ ['\n']

theorem line_append (name text : String) (rest : List Char) : line name text ++ rest
    = name.toList ++ ' ' :: '=' :: ' ' :: (quote text.toList ++ '\n' :: rest) := by
  simp [line]

theorem pair_line (isKey : IsBareKey name) (text : String) (rest : List Char) :
    pair (value maxDepth) (line name text ++ rest)
      = some (([name], .text text), '\n' :: rest) := by
  have keyed : key (line name text ++ rest)
      = some ([name], '=' :: ' ' :: (quote text.toList ++ '\n' :: rest)) := by
    rw [line_append]
    exact key_of_isBareKey isKey (by rintro c ⟨⟩; decide) rfl (by simp)
  have start : skipBlanks (' ' :: (quote text.toList ++ '\n' :: rest))
      = quote text.toList ++ '\n' :: rest := by
    obtain ⟨t, h | h⟩ := exists_quote_eq_cons text.toList
    · rw [h]
      rfl
    · rw [h]
      rfl
  simp only [pair, keyed, bind, Option.bind, expect, beq_self_eq_true, if_true, start, value_quote]

/-- A line is an expression with its name and its text. -/
theorem expression_line (isKey : IsBareKey name) (text : String) (rest : List Char) :
    expression (line name text ++ rest) = some (.pair [name] (.text text), rest) := by
  have trailing_ : trailing ('\n' :: rest) = some rest := rfl
  have paired := pair_line isKey text rest
  obtain ⟨c, cs, chars⟩ := List.exists_cons_of_ne_nil isKey.nonempty
  have bare : isBare c = true := isKey.bare c (by simp [chars])
  have notBracket : ∀ t, line name text ++ rest ≠ '[' :: t := by
    intro t h
    rw [line_append, chars] at h
    obtain rfl := (List.cons.inj h).1
    exact absurd bare (by decide)
  rw [expression.eq_def]
  split
  · next h => exact absurd h (notBracket _)
  · next h => exact absurd h (notBracket _)
  · simp only [paired, bind, Option.bind, trailing_]

/-- A name between brackets is a header. -/
theorem expression_header (isKey : IsBareKey name) (rest : List Char) :
    expression ('[' :: (name.toList ++ ']' :: '\n' :: rest)) = some (.header [name], rest) := by
  have keyed : key (name.toList ++ ']' :: '\n' :: rest) = some ([name], ']' :: '\n' :: rest) :=
    key_of_isBareKey isKey (by rintro c ⟨⟩; decide) rfl (by simp)
  have trailing_ : trailing ('\n' :: rest) = some rest := rfl
  obtain ⟨c, cs, chars⟩ := List.exists_cons_of_ne_nil isKey.nonempty
  have bare : isBare c = true := isKey.bare c (by simp [chars])
  rw [expression.eq_def]
  split
  · next h =>
    rw [chars] at h
    obtain rfl := (List.cons.inj (List.cons.inj h).2).1
    exact absurd bare (by decide)
  · next h =>
    obtain rfl := (List.cons.inj h).2
    simp only [keyed, bind, Option.bind, expect, beq_self_eq_true, if_true, trailing_]
  · next h => exact absurd rfl (h _)

/-- A line of the document that is an expression comes in front of the others. -/
theorem expressionsFrom_cons {c : Char} {s : List Char} {e : Expression} {fuel : Nat}
    (start : c = '[' ∨ isBare c = true) (h : expression (c :: s) = some (e, rest)) :
    expressionsFrom (fuel + 1) (c :: s) = (expressionsFrom fuel rest).map (e :: ·) := by
  have notBlank : (c == ' ' || c == '\t') = false := by
    obtain rfl | bare := start
    · rfl
    · exact not_isBlank_of_isBare bare
  have notEmpty : ∀ d, d = '\n' ∨ d = '\r' ∨ d = '#' → c ≠ d := by
    rintro d hd rfl
    obtain rfl | bare := start
    · exact absurd hd (by decide)
    · obtain rfl | rfl | rfl := hd <;> exact absurd bare (by decide)
  rw [expressionsFrom, skipBlanks_cons notBlank]
  split
  · next h => cases h
  · next h => exact absurd (List.cons.inj h).1 (notEmpty _ (by simp))
  · next h => exact absurd (List.cons.inj h).1 (notEmpty _ (by simp))
  · next h => exact absurd (List.cons.inj h).1 (notEmpty _ (by simp))
  · simp only [h, bind, Option.bind]
    cases expressionsFrom fuel rest <;> rfl

/-- Lines are read as expressions, one by one. -/
theorem expressionsFrom_lines {entries : List (String × String)}
    (keys : ∀ e ∈ entries, IsBareKey e.1) {fuel : Nat} (enough : entries.length < fuel) :
    expressionsFrom fuel (entries.flatMap fun e => line e.1 e.2)
      = some (entries.map fun e => .pair [e.1] (.text e.2)) := by
  induction entries generalizing fuel with
  | nil =>
    obtain ⟨fuel, rfl⟩ := Nat.exists_eq_add_of_lt enough
    simp [expressionsFrom, skipBlanks]
  | cons e entries ih =>
    obtain ⟨fuel, rfl⟩ : ∃ more, fuel = more + 1 := ⟨fuel - 1, by omega⟩
    rw [List.forall_mem_cons] at keys
    have read := expression_line keys.1 e.2 (entries.flatMap fun e => line e.1 e.2)
    obtain ⟨c, cs, chars⟩ := List.exists_cons_of_ne_nil keys.1.nonempty
    have bare : isBare c = true := keys.1.bare c (by simp [chars])
    rw [List.flatMap_cons]
    rw [line_append, chars, List.cons_append] at read ⊢
    rw [expressionsFrom_cons (.inr bare) read, ih keys.2 (by simpa using enough)]
    rfl

theorem length_lines (entries : List (String × String)) :
    entries.length ≤ (entries.flatMap fun e => line e.1 e.2).length := by
  induction entries with
  | nil => simp
  | cons e entries ih =>
    have positive : 0 < (line e.1 e.2).length := by
      simp only [line, List.length_append, List.length_cons]
      omega
    rw [List.flatMap_cons, List.length_append, List.length_cons]
    omega

/-- A header and a line for each entry. -/
def table (name : String) (entries : List (String × String)) : List Char :=
  '[' :: (name.toList ++ [']', '\n'] ++ entries.flatMap fun e => line e.1 e.2)

theorem expressions_table (isKey : IsBareKey name) {entries : List (String × String)}
    (keys : ∀ e ∈ entries, IsBareKey e.1) : expressions (table name entries)
      = some (.header [name] :: entries.map fun e => .pair [e.1] (.text e.2)) := by
  have read := expression_header isKey (entries.flatMap fun e => line e.1 e.2)
  have written : table name entries
      = '[' :: (name.toList ++ ']' :: '\n' :: entries.flatMap fun e => line e.1 e.2) := by
    simp [table]
  have enough : entries.length < (table name entries).length := by
    have lines := length_lines entries
    simp only [table, List.length_cons, List.length_append]
    omega
  change expressionsFrom ((table name entries).length + 1) (table name entries) = _
  generalize (table name entries).length = fuel at enough
  rw [written, expressionsFrom_cons (.inl rfl) read, expressionsFrom_lines keys enough]
  rfl

/-! ### Documents -/

/-- Entries with new names are added at the end, in their order. -/
theorem foldlM_add (d : Draft) {entries : List (String × String)}
    (distinct : (entries.map (·.1)).Nodup)
    (fresh : ∀ e ∈ entries, d.current.find? e.1 = none) :
    (entries.map fun e => Expression.pair [e.1] (.text e.2)).foldlM Draft.add d
      = some { d with current := d.current ++ entries.map fun e => (e.1, .text e.2) } := by
  induction entries generalizing d with
  | nil => simp
  | cons e entries ih =>
    rw [List.map_cons, List.nodup_cons] at distinct
    rw [List.forall_mem_cons] at fresh
    have added : d.add (.pair [e.1] (.text e.2))
        = some { d with current := d.current ++ [(e.1, .text e.2)] } := by
      simp [Draft.add, Members.addPair, Members.update, Members.add, fresh.1]
    have later : ∀ f ∈ entries,
        Members.find? (d.current ++ [(e.1, Value.text e.2)]) f.1 = none := by
      intro f hf
      have other : f.1 ≠ e.1 := by
        intro same
        exact distinct.1 (same ▸ List.mem_map_of_mem hf)
      have absent : d.current.lookup f.1 = none := fresh.2 f hf
      simp [Members.find?, List.lookup_append, absent, List.lookup_cons,
        beq_eq_false_iff_ne.mpr other]
    rw [List.map_cons, List.foldlM_cons, added]
    exact (ih { d with current := d.current ++ [(e.1, .text e.2)] } distinct.2 later).trans
      (by simp)

/-- A table of texts is read as it was written. -/
theorem document?_table (isKey : IsBareKey name) {entries : List (String × String)}
    (keys : ∀ e ∈ entries, IsBareKey e.1) (distinct : (entries.map (·.1)).Nodup) :
    document? (String.ofList (table name entries))
      = some [(name, .table .header (entries.map fun e => (e.1, .text e.2)))] := by
  have header : Draft.add {} (.header [name]) = some { keys := [name] } := by
    simp [Draft.add, Draft.close, Draft.claim, Members.update, Members.find?, Draft.claim.membersAt]
  have folded := foldlM_add { keys := [name] } distinct (by simp [Members.find?])
  rw [document?, String.toList_ofList, expressions_table isKey keys]
  simp only [bind, Option.bind, List.foldlM_cons, header, folded]
  simp [Draft.close, Members.update, Members.add, Members.find?]

end TargetQuery.Toml
