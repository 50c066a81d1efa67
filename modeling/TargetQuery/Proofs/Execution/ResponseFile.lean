import TargetQuery.ResponseFile

/-!
# Reading response files

A response file is read byte by byte, with the argument that has been begun and the quote that is
open. An argument as it is written takes the reader from between two arguments to behind this one,
so a whole file is read as the arguments that were written to it. Quotes are spared where nothing
asks for them.
-/

namespace TargetQuery.ResponseFile

/-- Behind a backslash every byte stands for itself, whatever has been begun or opened. -/
theorem readFrom_backslash (begun : Option Bytes) (opened : Option UInt8) (b : UInt8)
    (rest : Bytes) : readFrom begun opened (Ascii.backslash :: b :: rest)
      = readFrom (some (begun.getD [] ++ [b])) opened rest := by
  rw [readFrom.eq_def]
  rfl

/-- Between quotes every byte but the quote itself and a backslash stands for itself. -/
theorem readFrom_quoted {begun : Option Bytes} {mark b : UInt8} (notMark : b ≠ mark)
    (notBackslash : b ≠ Ascii.backslash) (rest : Bytes) :
    readFrom begun (some mark) (b :: rest)
      = readFrom (some (begun.getD [] ++ [b])) (some mark) rest := by
  rw [readFrom.eq_def]
  simp [notMark, notBackslash]

theorem readFrom_unquoted {begun : Option Bytes} {b : UInt8} (plain : isSpecial b = false)
    (rest : Bytes) : readFrom begun none (b :: rest)
      = readFrom (some (begun.getD [] ++ [b])) none rest := by
  simp only [isSpecial, Bool.or_eq_false_iff, beq_eq_false_iff_ne] at plain
  obtain ⟨⟨⟨notBlank, notDouble⟩, notSingle⟩, notBackslash⟩ := plain
  rw [readFrom.eq_def]
  simp [notBlank, notDouble, notSingle, notBackslash]

theorem readFrom_newline (begun : Option Bytes) (rest : Bytes) :
    readFrom begun none (Ascii.newline :: rest) = begun.toList ++ readFrom none none rest := by
  rw [readFrom.eq_def]
  rfl

/-! ### One argument -/

theorem readFrom_escape (soFar : Bytes) (b : UInt8) (rest : Bytes) :
    readFrom (some soFar) (some Ascii.doubleQuote) (escape b ++ rest)
      = readFrom (some (soFar ++ [b])) (some Ascii.doubleQuote) rest := by
  by_cases special : (b == Ascii.doubleQuote || b == Ascii.backslash) = true
  · rw [escape, if_pos special]
    exact readFrom_backslash (some soFar) _ b rest
  · rw [escape, if_neg special]
    simp only [Bool.or_eq_true, beq_iff_eq, not_or] at special
    exact readFrom_quoted special.1 special.2 rest

theorem readFrom_escaped (soFar argument rest : Bytes) :
    readFrom (some soFar) (some Ascii.doubleQuote) (argument.flatMap escape ++ rest)
      = readFrom (some (soFar ++ argument)) (some Ascii.doubleQuote) rest := by
  induction argument generalizing soFar with
  | nil => simp
  | cons b argument ih =>
    rw [List.flatMap_cons, List.append_assoc, readFrom_escape, ih, List.append_assoc,
      List.singleton_append]

theorem readFrom_plain (soFar : Bytes) {argument : Bytes}
    (plain : ∀ b ∈ argument, isSpecial b = false) (rest : Bytes) :
    readFrom (some soFar) none (argument ++ rest)
      = readFrom (some (soFar ++ argument)) none rest := by
  induction argument generalizing soFar with
  | nil => simp
  | cons b argument ih =>
    rw [List.forall_mem_cons] at plain
    have step := @readFrom_unquoted (some soFar) b plain.1 (argument ++ rest)
    rw [List.cons_append, step, Option.getD_some, ih _ plain.2, List.append_assoc,
      List.singleton_append]

/-- A line of the file is read as the argument that was written on it. -/
theorem readFrom_quote (argument rest : Bytes) :
    readFrom none none (quote argument ++ Ascii.newline :: rest)
      = argument :: readFrom none none rest := by
  by_cases quotes : (argument.isEmpty || argument.any isSpecial) = true
  · rw [quote, if_pos quotes, List.cons_append, List.cons_append, List.append_assoc]
    have opens : ∀ s, readFrom none none (Ascii.doubleQuote :: s)
        = readFrom (some []) (some Ascii.doubleQuote) s := by
      intro s
      rw [readFrom.eq_def]
      rfl
    have closes : ∀ s, readFrom (some argument) (some Ascii.doubleQuote) (Ascii.doubleQuote :: s)
        = readFrom (some argument) none s := by
      intro s
      rw [readFrom.eq_def]
      rfl
    rw [opens, readFrom_escaped, List.nil_append, List.singleton_append, closes,
      readFrom_newline, Option.toList_some, List.singleton_append]
  · rw [quote, if_neg quotes]
    simp only [Bool.or_eq_true, List.isEmpty_iff, List.any_eq_true, not_or, not_exists, not_and,
      Bool.not_eq_true] at quotes
    obtain ⟨nonempty, plain⟩ := quotes
    obtain ⟨b, argument, rfl⟩ := List.exists_cons_of_ne_nil nonempty
    rw [List.forall_mem_cons] at plain
    rw [List.cons_append, readFrom_unquoted plain.1, readFrom_plain _ plain.2, readFrom_newline]
    rfl

/-! ### When quotes are needed -/

/-- The bytes for which an argument needs quotes. -/
def special : List UInt8 :=
  [Ascii.space, Ascii.tab, Ascii.newline, Ascii.formFeed, Ascii.carriageReturn,
    Ascii.doubleQuote, Ascii.apostrophe, Ascii.backslash]

theorem isSpecial_iff {b : UInt8} : isSpecial b = true ↔ b ∈ special := by
  simp [isSpecial, Ascii.isBlank, special, or_assoc]

theorem length_le_length_flatMap_escape (argument : Bytes) :
    argument.length ≤ (argument.flatMap escape).length := by
  induction argument with
  | nil => exact Nat.le_refl 0
  | cons b argument ih =>
    have step : 1 ≤ (escape b).length := by
      rw [escape]
      split <;> simp
    rw [List.flatMap_cons, List.length_append, List.length_cons]
    omega

/-- An argument stands as it is just if it is not empty and no byte of it is special. -/
theorem quote_eq_self_iff {argument : Bytes} :
    quote argument = argument ↔ argument ≠ [] ∧ ∀ b ∈ argument, b ∉ special := by
  by_cases quotes : (argument.isEmpty || argument.any isSpecial) = true
  · rw [quote, if_pos quotes]
    constructor
    · intro same
      have longer := length_le_length_flatMap_escape argument
      have lengths := congrArg List.length same
      simp only [List.cons_append, List.length_cons, List.length_append] at lengths
      omega
    · rintro ⟨nonempty, plain⟩
      simp only [Bool.or_eq_true, List.isEmpty_iff, List.any_eq_true, isSpecial_iff] at quotes
      obtain empty | ⟨b, mem, isSpecial⟩ := quotes
      · exact absurd empty nonempty
      · exact absurd isSpecial (plain b mem)
  · rw [quote, if_neg quotes]
    simp only [Bool.or_eq_true, List.isEmpty_iff, List.any_eq_true, isSpecial_iff, not_or,
      not_exists, not_and] at quotes
    exact iff_of_true rfl quotes

/-! ### Whole files -/

theorem contents_cons (argument : Bytes) (arguments : List Bytes) :
    contents (argument :: arguments) = quote argument ++ Ascii.newline :: contents arguments := by
  rw [contents, contents, List.flatMap_cons, List.append_assoc, List.singleton_append]

/-- Each argument stands on a line of its own, whatever is before and behind it. -/
theorem contents_append_cons (before : List Bytes) (argument : Bytes) (behind : List Bytes) :
    contents (before ++ argument :: behind)
      = contents before ++ (quote argument ++ Ascii.newline :: contents behind) := by
  rw [contents, List.flatMap_append, ← contents, ← contents, contents_cons]

/-- What is written is read back, and then the reader goes on with what stands behind it. -/
theorem read_contents_append (arguments : List Bytes) (rest : Bytes) :
    read (contents arguments ++ rest) = arguments ++ read rest := by
  induction arguments with
  | nil => rfl
  | cons argument arguments ih =>
    rw [contents_cons, List.append_assoc, List.cons_append, read, readFrom_quote]
    exact congrArg (argument :: ·) ih

/-- What is written is read back: no argument is lost, split, merged or changed. -/
theorem read_contents_eq (arguments : List Bytes) : read (contents arguments) = arguments := by
  have whole := read_contents_append arguments []
  rwa [List.append_nil, show read [] = [] from rfl, List.append_nil] at whole

/-- Writing is undone by reading, so no two argument lists are written alike. An argument without
special bytes stands on its line as it is. -/
theorem read_undoes_contents :
    (∀ arguments, read (contents arguments) = arguments) ∧
      Function.Injective contents ∧
      (∀ before argument behind, contents (before ++ argument :: behind)
        = contents before ++ (quote argument ++ Ascii.newline :: contents behind)) ∧
      ∀ argument, quote argument = argument ↔ argument ≠ [] ∧ ∀ b ∈ argument, b ∉ special :=
  ⟨read_contents_eq, Function.LeftInverse.injective read_contents_eq, contents_append_cons,
    fun _ => quote_eq_self_iff⟩

end TargetQuery.ResponseFile
