import TargetQuery.Diagnostic

/-!
# The text of a diagnostic

A diagnostic is shown line by line: the headline, its context, and behind a blank line the
suggestions with their numbers. With colours, single words stand between sequences that a terminal
does not show. The plain text is what is left without these sequences, as long as nobody else has
put an escape character into it.
-/

namespace TargetQuery

/-- The text of some lines, each with its end. -/
def unlines (lines : List String) : String := String.join (lines.map (· ++ "\n"))

theorem unlines_append (lines more : List String) :
    unlines (lines ++ more) = unlines lines ++ unlines more := by
  rw [unlines, List.map_append, String.join_append]
  rfl

theorem unlines_cons (line : String) (lines : List String) :
    unlines (line :: lines) = line ++ "\n" ++ unlines lines := by
  rw [unlines, List.map_cons, String.join_cons]
  rfl

namespace Diagnostic

/-! ### Lines -/

/-- The line of the suggestion at a place of the list. The first place has the number one. -/
def suggestionLine (place : Nat) (suggestion : String) : String :=
  "  " ++ toString (place + 1) ++ ". " ++ suggestion

/-- What is shown below the context: nothing, or the suggestions behind a blank line. -/
def adviceLines : List String → List String
  | [] => []
  | first :: more => "" :: "help: consider:" :: (first :: more).mapIdx suggestionLine

def plainLines (d : Diagnostic) : List String :=
  (d.severity.name ++ ": " ++ d.message) :: d.context.map ("  = " ++ ·)
    ++ adviceLines d.suggestions

theorem join_context (context : List String) :
    String.join (context.map fun line => "  = " ++ line ++ "\n")
      = unlines (context.map ("  = " ++ ·)) := by
  rw [unlines, List.map_map]
  rfl

theorem join_numbered (suggestions : List String) :
    String.join (numbered suggestions) = unlines (suggestions.mapIdx suggestionLine) := by
  rw [unlines, numbered, List.mapIdx_eq_zipIdx_map, List.map_map]
  rfl

theorem render_plain (d : Diagnostic) : d.render false = unlines d.plainLines := by
  obtain ⟨severity, message, context, suggestions⟩ := d
  rw [plainLines, unlines_append, unlines_cons, ← join_context]
  cases suggestions with
  | nil => rfl
  | cons first more =>
    rw [adviceLines, unlines_cons, unlines_cons, ← join_numbered]
    simp only [render, painted, List.isEmpty_cons, Bool.false_eq_true, if_false,
      String.append_assoc]
    rfl

/-! ### Colours -/

/-- The characters without the sequences that set colours. Such a sequence is an escape character, a
bracket, and all up to the next letter m. -/
def shownChars : List Char → List Char
  | [] => []
  | '\x1b' :: '[' :: rest =>
    if 'm' ∈ rest then shownChars (rest.dropWhile (· != 'm')).tail else '\x1b' :: '[' :: rest
  | c :: rest => c :: shownChars rest
termination_by s => s.length
decreasing_by
  · have shorter := (List.tail_sublist _).trans (List.dropWhile_sublist (· != 'm') (l := rest))
    have bound := shorter.length_le
    simp only [List.length_cons]
    omega
  · simp

/-- The text without the sequences that set colours. -/
def withoutColours (text : String) : String := String.ofList (shownChars text.toList)

/-- No escape character occurs in the text. -/
def Unescaped (text : String) : Prop := '\x1b' ∉ text.toList

instance (text : String) : Decidable (Unescaped text) :=
  inferInstanceAs (Decidable ('\x1b' ∉ text.toList))

theorem shownChars_cons {c : Char} (other : c ≠ '\x1b') (rest : List Char) :
    shownChars (c :: rest) = c :: shownChars rest := by
  rw [shownChars]
  intro _ same
  exact absurd same other

theorem shownChars_sequence {inner : List Char} (h : 'm' ∉ inner) (rest : List Char) :
    shownChars ('\x1b' :: '[' :: (inner ++ 'm' :: rest)) = shownChars rest := by
  have ends : (inner ++ 'm' :: rest).dropWhile (· != 'm') = 'm' :: rest := by
    rw [List.dropWhile_append_of_pos]
    · simp
    · intro c mem
      simp only [bne_iff_ne, ne_eq]
      rintro rfl
      exact h mem
  rw [shownChars, if_pos (by simp), ends, List.tail_cons]

/-- In front of any other text, the first text is shown as the second one. -/
def ShownAs (text plain : String) : Prop :=
  ∀ rest, shownChars (text.toList ++ rest) = plain.toList ++ shownChars rest

namespace ShownAs

variable {text plain text' plain' : String}

theorem withoutColours_eq (h : ShownAs text plain) : withoutColours text = plain := by
  have all := h []
  rw [List.append_nil, shownChars, List.append_nil] at all
  rw [withoutColours, all, String.ofList_toList]

theorem append (h : ShownAs text plain) (h' : ShownAs text' plain') :
    ShownAs (text ++ text') (plain ++ plain') := by
  intro rest
  rw [String.toList_append, String.toList_append, List.append_assoc, List.append_assoc, h, h']

end ShownAs

theorem shownAs_self {text : String} (unescaped : Unescaped text) : ShownAs text text := by
  intro rest
  rw [Unescaped] at unescaped
  generalize text.toList = s at unescaped ⊢
  induction s with
  | nil => rfl
  | cons c s ih =>
    rw [List.mem_cons, not_or] at unescaped
    rw [List.cons_append, shownChars_cons (Ne.symm unescaped.1), ih unescaped.2, List.cons_append]

theorem shownAs_painted {colour word : String} (h : 'm' ∉ colour.toList)
    (unescaped : Unescaped word) :
    ShownAs (painted true colour word) (painted false colour word) := by
  intro rest
  have begins : 'm' ∉ '1' :: ';' :: colour.toList := by simpa using h
  have chars : (painted true colour word).toList ++ rest
      = '\x1b' :: '[' :: (('1' :: ';' :: colour.toList) ++ 'm' :: (word.toList
        ++ '\x1b' :: '[' :: (['0'] ++ 'm' :: rest))) := by
    simp [painted]
  rw [chars, shownChars_sequence begins, shownAs_self unescaped, shownChars_sequence (by decide)]
  rfl

/-! ### Texts without an escape character -/

theorem unescaped_append {text more : String} :
    Unescaped (text ++ more) ↔ Unescaped text ∧ Unescaped more := by
  rw [Unescaped, String.toList_append, List.mem_append, not_or]
  rfl

theorem unescaped_join {texts : List String} :
    Unescaped (String.join texts) ↔ ∀ text ∈ texts, Unescaped text := by
  simp only [Unescaped, String.toList_join, List.mem_flatMap, not_exists, not_and]

theorem unescaped_toString (n : Nat) : Unescaped (toString n) := by
  intro mem
  rw [Nat.toString_eq_ofList_toDigits, String.toList_ofList] at mem
  have digit := Nat.isDigit_of_mem_toDigits (by decide) (by decide) mem
  exact absurd digit (by decide)

/-- Nothing that a diagnostic says holds an escape character. -/
structure IsUnescaped (d : Diagnostic) : Prop where
  message : Unescaped d.message
  context : ∀ line ∈ d.context, Unescaped line
  suggestions : ∀ line ∈ d.suggestions, Unescaped line

variable {d : Diagnostic}

theorem unescaped_context (h : d.IsUnescaped) :
    Unescaped (String.join (d.context.map fun line => "  = " ++ line ++ "\n")) := by
  apply unescaped_join.mpr
  intro text mem
  obtain ⟨line, there, rfl⟩ := List.mem_map.mp mem
  rw [unescaped_append, unescaped_append]
  exact ⟨⟨by decide, h.context line there⟩, by decide⟩

theorem unescaped_numbered (h : d.IsUnescaped) :
    Unescaped (String.join (numbered d.suggestions)) := by
  apply unescaped_join.mpr
  intro text mem
  obtain ⟨⟨line, place⟩, there, rfl⟩ := List.mem_map.mp mem
  have line := h.suggestions line (List.fst_mem_of_mem_zipIdx there)
  simp only [unescaped_append]
  exact ⟨⟨⟨⟨by decide, unescaped_toString _⟩, by decide⟩, line⟩, by decide⟩

/-- The coloured text is shown as the plain text, if nobody else put an escape character into it. -/
theorem shownAs_render (h : d.IsUnescaped) : ShownAs (d.render true) (d.render false) := by
  have word : ShownAs (painted true (colour d.severity) d.severity.name)
      (painted false (colour d.severity) d.severity.name) := by
    cases d.severity with
    | error => exact shownAs_painted (by decide) (by decide)
    | warning => exact shownAs_painted (by decide) (by decide)
  have help : ShownAs (painted true "32" "help") (painted false "32" "help") :=
    shownAs_painted (by decide) (by decide)
  have colon : ShownAs ": " ": " := shownAs_self (by decide)
  have lineEnd : ShownAs "\n" "\n" := shownAs_self (by decide)
  have consider : ShownAs ": consider:\n" ": consider:\n" := shownAs_self (by decide)
  have headline := ((word.append colon).append (shownAs_self h.message)).append lineEnd
  refine (headline.append (shownAs_self (unescaped_context h))).append ?_
  cases d.suggestions.isEmpty with
  | true =>
    have nothing : Unescaped "" := by decide
    exact shownAs_self nothing
  | false =>
    exact ((lineEnd.append help).append consider).append (shownAs_self (unescaped_numbered h))

/-! ### Diagnostics step by step -/

/-- Something that is added to a diagnostic. -/
inductive Addition where
  | context (line : String)
  | suggestion (line : String)

namespace Addition

def line : Addition → String
  | .context line | .suggestion line => line

def context? : Addition → Option String
  | .context line => some line
  | .suggestion _ => none

def suggestion? : Addition → Option String
  | .context _ => none
  | .suggestion line => some line

end Addition

def add (d : Diagnostic) : Addition → Diagnostic
  | .context line => d.withContext line
  | .suggestion line => d.withSuggestion line

/-- A diagnostic that says nothing but its message. -/
def start (message : String) : Severity → Diagnostic
  | .error => ofError message
  | .warning => ofWarning message

/-- The diagnostic that some additions lead to, one after the other. -/
def built (severity : Severity) (message : String) (additions : List Addition) : Diagnostic :=
  additions.foldl add (start message severity)

/-- Context and suggestions do not mix, in whatever order they are added. -/
theorem foldl_add (additions : List Addition) (d : Diagnostic) :
    additions.foldl add d =
      { d with
        context := d.context ++ additions.filterMap Addition.context?
        suggestions := d.suggestions ++ additions.filterMap Addition.suggestion? } := by
  induction additions generalizing d with
  | nil => simp
  | cons addition additions ih =>
    rw [List.foldl_cons, ih]
    cases addition with
    | context line =>
      simp [add, withContext, List.filterMap_cons, Addition.context?, Addition.suggestion?]
    | suggestion line =>
      simp [add, withSuggestion, List.filterMap_cons, Addition.context?, Addition.suggestion?]

theorem built_eq (severity : Severity) (message : String) (additions : List Addition) :
    built severity message additions =
      { severity, message
        context := additions.filterMap Addition.context?
        suggestions := additions.filterMap Addition.suggestion? } := by
  rw [built, foldl_add]
  cases severity <;> rfl

theorem isUnescaped_built {severity : Severity} {message : String} {additions : List Addition}
    (headline : Unescaped message) (lines : ∀ addition ∈ additions, Unescaped addition.line) :
    (built severity message additions).IsUnescaped := by
  rw [built_eq]
  constructor
  · exact headline
  · intro line mem
    obtain ⟨addition, there, is⟩ := List.mem_filterMap.mp mem
    cases addition <;> cases is
    exact lines _ there
  · intro line mem
    obtain ⟨addition, there, is⟩ := List.mem_filterMap.mp mem
    cases addition <;> cases is
    exact lines _ there

/-- The plain text of a diagnostic is its headline, its context, and, if there are suggestions, a
blank line, a line that introduces them, and the suggestions numbered from one; it makes no
difference in which order context and suggestions were added. Unless the message or a line holds an
escape character, the coloured text is the same up to the sequences that set colours. -/
theorem plain_and_coloured (severity : Severity) (message : String) (additions : List Addition) :
    (built severity message additions).render false
        = unlines ((severity.name ++ ": " ++ message)
          :: (additions.filterMap Addition.context?).map ("  = " ++ ·)
          ++ adviceLines (additions.filterMap Addition.suggestion?)) ∧
      (Unescaped message → (∀ addition ∈ additions, Unescaped addition.line) →
        withoutColours ((built severity message additions).render true)
          = (built severity message additions).render false) := by
  constructor
  · rw [render_plain, built_eq, plainLines]
  · intro headline lines
    exact (shownAs_render (isUnescaped_built headline lines)).withoutColours_eq

/-- What looks like half of a colour sequence is left alone. -/
theorem plain_and_coloured_brackets :
    let additions : List Addition :=
      [.suggestion "[0m", .context "[1;31m\n", .suggestion "m", .context ""]
    (Unescaped "[31m" ∧ ∀ addition ∈ additions, Unescaped addition.line) ∧
      (built .warning "[31m" additions).render false
        = "warning: [31m\n  = [1;31m\n\n  = \n\nhelp: consider:\n  1. [0m\n  2. m\n" ∧
      withoutColours ((built .warning "[31m" additions).render true)
        = (built .warning "[31m" additions).render false := by
  intro additions
  have headline : Unescaped "[31m" := by decide
  have lines : ∀ addition ∈ additions, Unescaped addition.line := by decide
  have shown := plain_and_coloured .warning "[31m" additions
  exact ⟨⟨headline, lines⟩, shown.1.trans (by decide +kernel), shown.2 headline lines⟩

end Diagnostic

end TargetQuery
