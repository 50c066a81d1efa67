import TargetQuery.CommandLine.Invocation
import TargetQuery.Proofs.Text.Utf8

/-!
# Values on the command line

An option stands on a command line with its value, behind an equals sign or in the argument behind
it. On a command line that is right nothing else looks like that, so what a command is given can be
seen from its arguments alone, without reading them from left to right.
-/

namespace TargetQuery.CommandLine

/-! ### Arguments with two dashes -/

def equals : UInt8 := 0x3D

/-- A flag, or an option whose value is the next argument. -/
def dashed (name : String) : Bytes := Ascii.minus :: Ascii.minus :: Utf8.encode name

def joined (name : String) (value : Bytes) : Bytes := dashed name ++ equals :: value

/-- The option is among the arguments, with the value. -/
def StandsWith (arguments : List Bytes) (name : String) (value : Bytes) : Prop :=
  joined name value ∈ arguments ∨ [dashed name, value] <:+: arguments

/-- What the name of an option or flag can be. -/
structure IsOptionName (name : String) : Prop where
  nonempty : Utf8.encode name ≠ []
  whole : equals ∉ Utf8.encode name

instance : DecidablePred IsOptionName := fun name =>
  decidable_of_iff (Utf8.encode name ≠ [] ∧ equals ∉ Utf8.encode name)
    ⟨fun h => ⟨h.1, h.2⟩, fun h => ⟨h.nonempty, h.whole⟩⟩

theorem standsWith_nil (name : String) (value : Bytes) : ¬ StandsWith [] name value := by
  simp [StandsWith]

theorem standsWith_cons {a : Bytes} {rest : List Bytes} {name : String} {value : Bytes} :
    StandsWith (a :: rest) name value ↔
      a = joined name value ∨ (a = dashed name ∧ rest.head? = some value) ∨
        StandsWith rest name value := by
  have front : [dashed name, value] <+: a :: rest ↔ a = dashed name ∧ rest.head? = some value := by
    cases rest with
    | nil => simp [List.cons_prefix_cons]
    | cons b rest => simp [List.cons_prefix_cons, eq_comm]
  rw [StandsWith, StandsWith, List.mem_cons, List.infix_cons_iff, front]
  tauto

theorem of_two_dashes {rest : Bytes} (nonempty : rest ≠ []) :
    Form.of (Ascii.minus :: Ascii.minus :: rest) =
      .long (rest.takeWhile (· != equals))
        ((rest.drop (rest.takeWhile (· != equals)).length).tail?) := by
  obtain ⟨b, rest, rfl⟩ := List.exists_cons_of_ne_nil nonempty
  rfl

theorem takeWhile_append_of_whole {n : Bytes} (whole : equals ∉ n) (more : Bytes) :
    (n ++ more).takeWhile (· != equals) = n ++ more.takeWhile (· != equals) := by
  refine List.takeWhile_append_of_pos fun b mem => ?_
  rw [bne_iff_ne]
  rintro rfl
  exact whole mem

theorem of_whole {n : Bytes} (nonempty : n ≠ []) (whole : equals ∉ n) :
    Form.of (Ascii.minus :: Ascii.minus :: n) = .long n none := by
  have all := takeWhile_append_of_whole whole []
  rw [List.append_nil, List.takeWhile_nil, List.append_nil] at all
  rw [of_two_dashes nonempty, all, List.drop_length]
  rfl

theorem of_split {n : Bytes} (whole : equals ∉ n) (value : Bytes) :
    Form.of (Ascii.minus :: Ascii.minus :: (n ++ equals :: value)) = .long n (some value) := by
  have stops := takeWhile_append_of_whole whole (equals :: value)
  rw [List.takeWhile_cons_of_neg (by simp), List.append_nil] at stops
  rw [of_two_dashes (by simp), stops, List.drop_left]
  rfl

/-- An argument with the form of an option or a flag is the name behind two dashes, or the name and
a value with an equals sign between them. -/
theorem eq_of_long {a n : Bytes} {value? : Option Bytes} (form : Form.of a = .long n value?) :
    a = Ascii.minus :: Ascii.minus :: (n ++ value?.elim [] (equals :: ·)) := by
  obtain ⟨rest, nonempty, rfl⟩ : ∃ rest, rest ≠ [] ∧ a = Ascii.minus :: Ascii.minus :: rest := by
    rw [Form.of.eq_def] at form
    split at form
    · cases form
    · next rest nonempty => exact ⟨_, nonempty, rfl⟩
    · cases form
    · cases form
  by_cases mem : equals ∈ rest
  · obtain ⟨m, value, rfl, whole⟩ := List.eq_append_cons_of_mem mem
    rw [of_split whole] at form
    obtain ⟨rfl, rfl⟩ := Form.long.inj form
    rfl
  · rw [of_whole nonempty mem] at form
    obtain ⟨rfl, rfl⟩ := Form.long.inj form
    rw [Option.elim_none, List.append_nil]

theorem dashed_inj {f name : String} : dashed f = dashed name ↔ f = name := by
  simp [dashed, Utf8.encode_injective.eq_iff]

/-! ### The front of the arguments -/

section

variable {a : Bytes} {rest : List Bytes} {f name : String} {v value : Bytes}

/-- Arguments of other forms are no options and no flags. -/
theorem ne_dashed_of_form (isName : IsOptionName name)
    (other : Form.of a ≠ .long (Utf8.encode name) none) : a ≠ dashed name := by
  rintro rfl
  exact other (of_whole isName.nonempty isName.whole)

theorem ne_joined_of_form (isName : IsOptionName name)
    (other : Form.of a ≠ .long (Utf8.encode name) (some value)) : a ≠ joined name value := by
  rintro rfl
  exact other (of_split isName.whole value)

theorem standsWith_cons_of_form (isName : IsOptionName name)
    (other : ∀ n v, Form.of a ≠ .long n v) :
    StandsWith (a :: rest) name value ↔ StandsWith rest name value := by
  have notDashed := ne_dashed_of_form isName (other _ _)
  have notJoined := ne_joined_of_form isName (other _ (some value))
  simp [standsWith_cons, notDashed, notJoined]

theorem standsWith_cons_of_dashed (isName : IsOptionName name)
    (form : Form.of (dashed f) = .long (Utf8.encode f) none) :
    StandsWith (dashed f :: rest) name value ↔
      f = name ∧ rest.head? = some value ∨ StandsWith rest name value := by
  have notJoined : dashed f ≠ joined name value := ne_joined_of_form isName (by simp [form])
  simp [standsWith_cons, dashed_inj, notJoined]

theorem standsWith_cons_of_joined (isName : IsOptionName name)
    (form : Form.of (joined f v) = .long (Utf8.encode f) (some v)) :
    StandsWith (joined f v :: rest) name value ↔
      f = name ∧ v = value ∨ StandsWith rest name value := by
  have notDashed : joined f v ≠ dashed name := ne_dashed_of_form isName (by simp [form])
  have same : joined f v = joined name value ↔ f = name ∧ v = value := by
    constructor
    · intro same
      rw [same, joined, dashed, List.cons_append, List.cons_append, of_split isName.whole] at form
      obtain ⟨names, values⟩ := Form.long.inj form
      exact ⟨(Utf8.encode_injective names).symm, (Option.some.inj values).symm⟩
    · rintro ⟨rfl, rfl⟩
      rfl
  simp [standsWith_cons, notDashed, same]

end

/-! ### Reading, step by step -/

/-- A run of the reader over arguments without operands, with what was given before and after, and
with the subcommand that it ends at. -/
inductive Reads (g : Grammar) (isRoot : Bool) :
    Given → List Bytes → Given → Option (String × List Bytes) → Prop
  | stop {given : Given} : Reads g isRoot given [] given none
  | separator {given : Given} {a : Bytes} (form : Form.of a = .separator) :
      Reads g isRoot given [a] given none
  | subcommand {given : Given} {name : String} {rest : List Bytes}
      (form : Form.of (Utf8.encode name) = .plain) :
      Reads g isRoot given (Utf8.encode name :: rest) given (some (name, rest))
  | letters {given given₁ given₂ : Given} {a : Bytes} {letters : List UInt8} {rest : List Bytes}
      {sub : Option (String × List Bytes)} (form : Form.of a = .letters letters)
      (gives : giveLetters g isRoot given letters = .ok given₁)
      (more : Reads g isRoot given₁ rest given₂ sub) : Reads g isRoot given (a :: rest) given₂ sub
  | flag {given given₁ given₂ : Given} {name : String} {rest : List Bytes}
      {sub : Option (String × List Bytes)}
      (form : Form.of (dashed name) = .long (Utf8.encode name) none)
      (gives : giveFlag g given name = .ok given₁)
      (more : Reads g isRoot given₁ rest given₂ sub) :
      Reads g isRoot given (dashed name :: rest) given₂ sub
  | joined {given given₁ given₂ : Given} {name : String} {value : Bytes} {rest : List Bytes}
      {sub : Option (String × List Bytes)}
      (form : Form.of (joined name value) = .long (Utf8.encode name) (some value))
      (gives : giveValue g given name value = .ok given₁)
      (more : Reads g isRoot given₁ rest given₂ sub) :
      Reads g isRoot given (joined name value :: rest) given₂ sub
  | apart {given given₁ given₂ : Given} {name : String} {value : Bytes} {rest : List Bytes}
      {sub : Option (String × List Bytes)}
      (form : Form.of (dashed name) = .long (Utf8.encode name) none)
      (plain : Form.of value = .plain)
      (gives : giveValue g given name value = .ok given₁)
      (more : Reads g isRoot given₁ rest given₂ sub) :
      Reads g isRoot given (dashed name :: value :: rest) given₂ sub

theorem exists_of_bind_eq_ok {ε α β : Type} {x : Except ε α} {f : α → Except ε β} {b : β}
    (h : (x >>= f) = .ok b) : ∃ a, x = .ok a ∧ f a = .ok b := by
  cases x with
  | error e => cases h
  | ok a => exact ⟨a, rfl, h⟩

theorem giveOperand_ne_ok {g : Grammar} (operands : g.operands = []) (given given' : Given)
    (value : Bytes) : giveOperand g given value ≠ .ok given' := by
  simp [giveOperand, operands]

theorem form_of_canBeValue {value : Bytes} (h : canBeValue value = true) :
    Form.of value = .plain := by
  rw [canBeValue] at h
  split at h
  · next form => exact form
  · cases h

/-- Whatever the reader takes without operands, it takes in these steps. -/
theorem reads_of_readFrom {g : Grammar} (operands : g.operands = []) {isRoot : Bool} {given : Given}
    {arguments : List Bytes} {given' : Given} {sub : Option (String × List Bytes)}
    (h : readFrom g isRoot given arguments = .ok (given', sub)) :
    Reads g isRoot given arguments given' sub := by
  induction given, arguments using readFrom.induct g isRoot with
  | case1 given =>
    rw [readFrom] at h
    cases h
    exact .stop
  | case2 given a rest form =>
    rw [readFrom] at h
    simp only [form] at h
    obtain ⟨given₁, taken, same⟩ := exists_of_bind_eq_ok h
    cases same
    cases rest with
    | nil =>
      cases taken
      exact .separator form
    | cons value rest =>
      obtain ⟨given₂, gives, -⟩ := exists_of_bind_eq_ok taken
      exact absurd gives (giveOperand_ne_ok operands given given₂ value)
  | case3 given a rest letters form ih =>
    rw [readFrom] at h
    simp only [form] at h
    obtain ⟨given₁, gives, more⟩ := exists_of_bind_eq_ok h
    exact .letters form gives (ih given₁ more)
  | case5 given a rest n name decoded value form ih =>
    rw [readFrom] at h
    simp only [form, decoded] at h
    obtain ⟨given₁, gives, more⟩ := exists_of_bind_eq_ok h
    obtain rfl := Utf8.decode?_eq_some_iff.mp decoded
    obtain rfl : a = joined name value := eq_of_long form
    exact .joined form gives (ih given₁ more)
  | case8 given a n name decoded notHelp notVersion known value rest plain form ih =>
    rw [readFrom] at h
    simp only [form, decoded, notHelp, notVersion, known, plain, if_true] at h
    obtain ⟨given₁, gives, more⟩ := exists_of_bind_eq_ok h
    obtain rfl := Utf8.decode?_eq_some_iff.mp decoded
    obtain rfl : a = dashed name := by simpa [dashed] using eq_of_long form
    exact .apart form (form_of_canBeValue plain) gives (ih given₁ more)
  | case11 given a rest n name decoded notHelp notVersion unknown form ih =>
    rw [readFrom] at h
    simp only [form, decoded, notHelp, notVersion, unknown] at h
    obtain ⟨given₁, gives, more⟩ := exists_of_bind_eq_ok h
    obtain rfl := Utf8.decode?_eq_some_iff.mp decoded
    obtain rfl : a = dashed name := by simpa [dashed] using eq_of_long form
    exact .flag form gives (ih given₁ more)
  | case12 given a rest form name decoded known =>
    rw [readFrom] at h
    simp only [form, decoded, known, if_true] at h
    cases h
    obtain rfl := Utf8.decode?_eq_some_iff.mp decoded
    exact .subcommand form
  | case14 given a rest form name decoded unknown notHelp ih =>
    rw [readFrom] at h
    simp only [form, decoded, unknown, notHelp] at h
    obtain ⟨given₁, gives, -⟩ := exists_of_bind_eq_ok h
    exact absurd gives (giveOperand_ne_ok operands given given₁ a)
  | case15 given a rest form decoded ih =>
    rw [readFrom] at h
    simp only [form, decoded] at h
    obtain ⟨given₁, gives, -⟩ := exists_of_bind_eq_ok h
    exact absurd gives (giveOperand_ne_ok operands given given₁ a)
  -- The other cases are those in which the reading stops.
  | case4 given a rest n value form broken =>
    rw [readFrom] at h
    simp only [form, broken] at h
    cases h
  | case6 given a rest n name decoded help form =>
    rw [readFrom] at h
    simp only [form, decoded, help, if_true] at h
    cases h
  | case7 given a rest n name decoded notHelp version form =>
    rw [readFrom] at h
    simp only [form, decoded, notHelp, version, if_true] at h
    cases h
  | case9 given a n name decoded notHelp notVersion known value rest other form =>
    rw [readFrom] at h
    simp only [form, decoded, notHelp, notVersion, known, other, if_true] at h
    cases h
  | case10 given a n name decoded notHelp notVersion known form =>
    rw [readFrom] at h
    simp only [form, decoded, notHelp, notVersion, known, if_true] at h
    cases h
  | case13 given a rest form name decoded unknown help =>
    rw [readFrom] at h
    simp only [form, decoded, unknown, help, if_true] at h
    cases h

/-! ### What is given -/

section

variable {g : Grammar} {given given' : Given} {name : String} {value : Bytes}

theorem giveValue_eq_ok (h : giveValue g given name value = .ok given') :
    (∃ kind, g.options.lookup name = some kind ∧ kind.admits value = true) ∧
      given.value? name = none ∧
        given' = { given with values := given.values ++ [(name, value)] } := by
  rw [giveValue] at h
  split at h
  · cases h
  · next kind known =>
    split at h
    · next fits =>
      rw [Bool.and_eq_true, Option.isNone_iff_eq_none] at fits
      exact ⟨⟨kind, known, fits.2⟩, fits.1, (Except.ok.inj h).symm⟩
    · cases h

theorem giveFlag_eq_ok (h : giveFlag g given name = .ok given') :
    name ∈ g.flags ∧ given' = { given with flags := name :: given.flags } := by
  rw [giveFlag] at h
  split at h
  · next fits =>
    rw [Bool.and_eq_true, List.contains_iff_mem] at fits
    exact ⟨fits.1, (Except.ok.inj h).symm⟩
  · cases h

/-- Letters give flags that have a letter, and nothing else. -/
theorem giveLetters_eq_ok {isRoot : Bool} {letters : List UInt8}
    (h : giveLetters g isRoot given letters = .ok given') :
    given'.values = given.values ∧
      (∀ f, f ∉ shortFlags.map (·.2) → (f ∈ given'.flags ↔ f ∈ given.flags)) ∧
        ∀ f ∈ given'.flags, f ∈ given.flags ∨ f ∈ g.flags := by
  induction letters generalizing given with
  | nil =>
    cases h
    exact ⟨rfl, fun _ _ => Iff.rfl, fun _ => .inl⟩
  | cons b letters ih =>
    rw [giveLetters] at h
    split at h
    · cases h
    split at h
    · cases h
    split at h
    · next name known =>
      obtain ⟨given₁, gives, more⟩ := exists_of_bind_eq_ok h
      obtain ⟨isFlag, rfl⟩ := giveFlag_eq_ok gives
      obtain ⟨values, flags, known'⟩ := ih more
      refine ⟨values, fun f long => (flags f long).trans ?_, fun f mem => ?_⟩
      · obtain ⟨before, behind, split, -⟩ := List.lookup_eq_some_iff.mp known
        have other : f ≠ name := by
          rintro rfl
          exact long (List.mem_map.mpr ⟨_, split ▸ List.mem_append_right _ List.mem_cons_self, rfl⟩)
        simp [other]
      · obtain mem | isFlag' := known' f mem
        · obtain rfl | mem := List.mem_cons.mp mem
          · exact .inr isFlag
          · exact .inl mem
        · exact .inr isFlag'
    · cases h

/-- The arguments behind the subcommand, if there is one. -/
def behind (sub : Option (String × List Bytes)) : List Bytes := sub.elim [] (·.2)

@[simp] theorem behind_none : behind none = [] := rfl

/-- A value is given if it stands with its option in front of the subcommand. -/
theorem Reads.mem_values_iff {isRoot : Bool} {arguments : List Bytes}
    {sub : Option (String × List Bytes)} (reads : Reads g isRoot given arguments given' sub)
    (isName : IsOptionName name) (notFlag : name ∉ g.flags) (value : Bytes) :
    (name, value) ∈ given'.values ∨ StandsWith (behind sub) name value ↔
      (name, value) ∈ given.values ∨ StandsWith arguments name value := by
  induction reads with
  | stop => rfl
  | separator form =>
    rw [standsWith_cons_of_form isName (by simp [form])]
    rfl
  | subcommand form =>
    rw [standsWith_cons_of_form isName (by simp [form])]
    rfl
  | letters form gives more ih =>
    rw [standsWith_cons_of_form isName (by simp [form]), ih, (giveLetters_eq_ok gives).1]
  | flag form gives more ih =>
    obtain ⟨isFlag, rfl⟩ := giveFlag_eq_ok gives
    have other : ∀ {f}, f ∈ g.flags → f ≠ name := fun isFlag same => notFlag (same ▸ isFlag)
    rw [standsWith_cons_of_dashed isName form, ih]
    simp [other isFlag]
  | joined form gives more ih =>
    obtain ⟨-, -, rfl⟩ := giveValue_eq_ok gives
    rw [standsWith_cons_of_joined isName form, ih, List.mem_append, List.mem_singleton,
      Prod.mk.injEq, eq_comm (a := name), eq_comm (a := value), or_assoc]
  | apart form plain gives more ih =>
    obtain ⟨-, -, rfl⟩ := giveValue_eq_ok gives
    rw [standsWith_cons_of_dashed isName form, standsWith_cons_of_form isName (by simp [plain]), ih,
      List.head?_cons, Option.some.injEq, List.mem_append, List.mem_singleton, Prod.mk.injEq,
      eq_comm (a := name), eq_comm (a := value), or_assoc]

/-- A flag that has no letter is given if it stands in front of the subcommand. -/
theorem Reads.mem_flags_iff {isRoot : Bool} {arguments : List Bytes}
    {sub : Option (String × List Bytes)} (reads : Reads g isRoot given arguments given' sub)
    (isName : IsOptionName name) (notOption : g.options.lookup name = none)
    (long : name ∉ shortFlags.map (·.2)) :
    name ∈ given'.flags ∨ dashed name ∈ behind sub ↔
      name ∈ given.flags ∨ dashed name ∈ arguments := by
  have noValue : ∀ {given given₁ f value}, giveValue g given f value = .ok given₁ → f ≠ name := by
    rintro given given₁ f value gives rfl
    obtain ⟨⟨kind, known, -⟩, -⟩ := giveValue_eq_ok gives
    rw [notOption] at known
    cases known
  induction reads with
  | stop => rfl
  | separator form =>
    have other := ne_dashed_of_form isName (by rw [form]; simp)
    simp [behind, other.symm]
  | subcommand form =>
    have other := ne_dashed_of_form isName (by rw [form]; simp)
    simp [behind, other.symm]
  | letters form gives more ih =>
    have other := ne_dashed_of_form isName (by rw [form]; simp)
    refine ih.trans ?_
    rw [(giveLetters_eq_ok gives).2.1 name long, List.mem_cons, or_iff_right other.symm]
  | flag form gives more ih =>
    obtain ⟨isFlag, rfl⟩ := giveFlag_eq_ok gives
    refine ih.trans ?_
    rw [List.mem_cons, List.mem_cons, dashed_inj]
    tauto
  | joined form gives more ih =>
    have other := ne_dashed_of_form isName (by rw [form]; simp)
    obtain ⟨-, -, rfl⟩ := giveValue_eq_ok gives
    refine ih.trans ?_
    rw [List.mem_cons, or_iff_right other.symm]
  | apart form plain gives more ih =>
    have other := ne_dashed_of_form isName (by rw [plain]; simp)
    have different := noValue gives
    obtain ⟨-, -, rfl⟩ := giveValue_eq_ok gives
    refine ih.trans ?_
    rw [List.mem_cons, List.mem_cons, or_iff_right other.symm, dashed_inj,
      or_iff_right different.symm]

/-- Only what the command takes has been given, every option at most once, and its value is what it
must be. -/
structure WellGiven (g : Grammar) (given : Given) : Prop where
  flags : ∀ f ∈ given.flags, f ∈ g.flags
  once : (given.values.map (·.1)).Nodup
  admitted : ∀ o ∈ given.values, ∃ kind, g.options.lookup o.1 = some kind ∧ kind.admits o.2 = true

theorem lookup_eq_none_iff_not_mem {values : List (String × Bytes)} :
    values.lookup name = none ↔ name ∉ values.map (·.1) := by
  rw [List.lookup_eq_none_iff, List.mem_map]
  constructor
  · rintro other ⟨o, mem, rfl⟩
    exact absurd (other o mem) (by simp)
  · intro absent o mem
    rw [bne_iff_ne]
    rintro rfl
    exact absent ⟨o, mem, rfl⟩

/-- Nothing is given that the command does not take. -/
theorem Reads.wellGiven {isRoot : Bool} {arguments : List Bytes}
    {sub : Option (String × List Bytes)} (reads : Reads g isRoot given arguments given' sub)
    (well : WellGiven g given) : WellGiven g given' := by
  have step : ∀ {given given₁ f value}, giveValue g given f value = .ok given₁ →
      WellGiven g given → WellGiven g given₁ := by
    intro given given₁ f value gives well
    obtain ⟨known, new, rfl⟩ := giveValue_eq_ok gives
    refine ⟨well.flags, ?_, ?_⟩
    · have absent := lookup_eq_none_iff_not_mem.mp new
      rw [List.map_append, List.map_singleton, List.nodup_append]
      refine ⟨well.once, by simp, fun f' mem f'' same => ?_⟩
      obtain rfl := List.mem_singleton.mp same
      rintro rfl
      exact absent mem
    · rw [List.forall_mem_append, List.forall_mem_singleton]
      exact ⟨well.admitted, known⟩
  induction reads with
  | stop => exact well
  | separator form => exact well
  | subcommand form => exact well
  | letters form gives more ih =>
    obtain ⟨values, -, known⟩ := giveLetters_eq_ok gives
    refine ih ⟨fun f mem => ?_, values ▸ well.once, values ▸ well.admitted⟩
    exact (known f mem).elim (well.flags f) id
  | flag form gives more ih =>
    obtain ⟨isFlag, rfl⟩ := giveFlag_eq_ok gives
    exact ih ⟨List.forall_mem_cons.mpr ⟨isFlag, well.flags⟩, well.once, well.admitted⟩
  | joined form gives more ih => exact ih (step gives well)
  | apart form plain gives more ih => exact ih (step gives well)

theorem wellGiven_nil (g : Grammar) : WellGiven g {} :=
  ⟨List.forall_mem_nil _, List.nodup_nil, List.forall_mem_nil _⟩

/-- An option has the value that was given with it, since it is given only once. -/
theorem WellGiven.value?_eq_some_iff (well : WellGiven g given) :
    given.value? name = some value ↔ (name, value) ∈ given.values := by
  have once := well.once
  rw [Given.value?]
  generalize given.values = values at once
  induction values with
  | nil => simp
  | cons o values ih =>
    obtain ⟨f, v⟩ := o
    rw [List.map_cons, List.nodup_cons] at once
    rw [List.lookup_cons, List.mem_cons, Prod.mk.injEq]
    by_cases same : name = f
    · subst same
      have absent : (name, value) ∉ values := fun mem => once.1 (List.mem_map.mpr ⟨_, mem, rfl⟩)
      simp [absent, eq_comm]
    · rw [beq_eq_false_iff_ne.mpr same]
      simp [same, ih once.2]

end

/-! ### Subcommands -/

variable {g leaf : Grammar} {name : String} {arguments : List Bytes} {fuel : Nat}

/-- A command reads what is its own, and hands what is left to a subcommand. -/
theorem read_succ_eq_ok {chosen chosen' : Chosen}
    (h : read g (fuel + 1) chosen arguments = .ok chosen') :
    ∃ given,
      readFrom g chosen.path.isEmpty {} arguments = .ok (given, none) ∧
          chosen' = { chosen with given := chosen.given ++ [given] } ∨
        ∃ n rest inner, readFrom g chosen.path.isEmpty {} arguments = .ok (given, some (n, rest)) ∧
          g.subcommand? n = some inner ∧
            read inner fuel ⟨chosen.path ++ [n], chosen.given ++ [given]⟩ rest = .ok chosen' := by
  rw [read] at h
  obtain ⟨⟨given, sub⟩, front, h⟩ := exists_of_bind_eq_ok h
  refine ⟨given, ?_⟩
  cases sub with
  | none =>
    dsimp only at h
    split at h
    · exact .inl ⟨front, (Except.ok.inj h).symm⟩
    · cases h
  | some found =>
    obtain ⟨n, rest⟩ := found
    dsimp only at h
    split at h
    · cases h
    · next inner sub => exact .inr ⟨n, rest, inner, front, sub, h⟩

/-- Subcommands are only added to those on the way. -/
theorem path_prefix_of_read {chosen chosen' : Chosen}
    (h : read g fuel chosen arguments = .ok chosen') : chosen.path <+: chosen'.path := by
  induction fuel generalizing g chosen arguments with
  | zero => cases h
  | succ fuel ih =>
    obtain ⟨given, ⟨-, rfl⟩ | ⟨n, rest, inner, -, -, more⟩⟩ := read_succ_eq_ok h
    · exact List.prefix_rfl
    · exact (List.prefix_append _ _).trans (ih more)

/-- The subcommands lead to a command, and on the way there is no use for a name. -/
inductive Way (name : String) : Grammar → List String → Grammar → Prop
  | here {g : Grammar} (operands : g.operands = []) : Way name g [] g
  | through {g inner leaf : Grammar} {n : String} {path : List String} (operands : g.operands = [])
      (options : g.options = []) (notFlag : name ∉ g.flags) (sub : g.subcommand? n = some inner)
      (more : Way name inner path leaf) : Way name g (n :: path) leaf

/-- What stands with the name on the whole command line stands behind the subcommands, and that is
what is given to the command itself. -/
theorem Way.exists_reads {path : List String} (way : Way name g path leaf)
    (isName : IsOptionName name) (long : name ∉ shortFlags.map (·.2)) {chosen chosen' : Chosen}
    (h : read g fuel chosen arguments = .ok chosen') (ends : chosen'.path = chosen.path ++ path) :
    ∃ isRoot rest, Reads leaf isRoot {} rest chosen'.last none ∧
      (∀ value, StandsWith rest name value ↔ StandsWith arguments name value) ∧
      (dashed name ∈ rest ↔ dashed name ∈ arguments) := by
  induction way generalizing fuel chosen arguments with
  | here operands =>
    cases fuel with
    | zero => cases h
    | succ fuel =>
      obtain ⟨given, ⟨front, rfl⟩ | ⟨n, rest, inner, -, -, more⟩⟩ := read_succ_eq_ok h
      · have last : (Chosen.mk chosen.path (chosen.given ++ [given])).last = given := by
          simp [Chosen.last]
        refine ⟨chosen.path.isEmpty, arguments, ?_, fun _ => Iff.rfl, Iff.rfl⟩
        rw [last]
        exact reads_of_readFrom operands front
      · have longer := (path_prefix_of_read more).length_le
        rw [ends, List.length_append, List.length_append, List.length_singleton,
          List.length_nil] at longer
        omega
  | through operands options notFlag sub more ih =>
    cases fuel with
    | zero => cases h
    | succ fuel =>
      obtain ⟨given, ⟨-, rfl⟩ | ⟨n, rest, inner, front, sub', deeper⟩⟩ := read_succ_eq_ok h
      · simp at ends
      · have first := path_prefix_of_read deeper
        rw [ends, List.prefix_append_right_inj, List.cons_prefix_cons] at first
        obtain ⟨rfl, -⟩ := first
        obtain rfl := Option.some.inj (sub.symm.trans sub')
        obtain ⟨isRoot, last, reads, values, flags⟩ := ih deeper (by simp [ends])
        have reads₀ := reads_of_readFrom operands front
        have well := reads₀.wellGiven (wellGiven_nil _)
        have noValue : ∀ value, (name, value) ∉ given.values := by
          intro value mem
          obtain ⟨kind, known, -⟩ := well.admitted _ mem
          rw [options] at known
          cases known
        have noFlag : name ∉ given.flags := fun mem => notFlag (well.flags name mem)
        refine ⟨isRoot, last, reads, fun value => (values value).trans ?_, flags.trans ?_⟩
        · have front := reads₀.mem_values_iff isName notFlag value
          rwa [or_iff_right (noValue value), or_iff_right List.not_mem_nil] at front
        · have front := reads₀.mem_flags_iff isName (by rw [options]; rfl) long
          rwa [or_iff_right noFlag, or_iff_right List.not_mem_nil] at front

theorem path?_eq_some_iff {given : Given} {p : Path} :
    given.path? name = some p ↔ given.value? name = some p.bytes := by
  obtain ⟨bytes⟩ := p
  simp [Given.path?]

/-- An option that takes text, or one of some names, has a value that is text. -/
theorem WellGiven.text?_eq_some_iff {given : Given} (well : WellGiven g given) {kind : ValueKind}
    (known : g.options.lookup name = some kind) (notPath : kind ≠ .path) {s : String} :
    given.text? name = some s ↔ given.value? name = some (Utf8.encode s) := by
  rw [Given.text?, Option.map_eq_some_iff]
  constructor
  · rintro ⟨value, found, rfl⟩
    obtain ⟨kind', known', admits⟩ := well.admitted _ (well.value?_eq_some_iff.mp found)
    obtain rfl := Option.some.inj (known.symm.trans known')
    obtain ⟨t, rfl⟩ : ∃ t, Utf8.encode t = value := by
      cases kind with
      | path => exact absurd rfl notPath
      | text =>
        obtain ⟨t, decoded⟩ := Option.isSome_iff_exists.mp admits
        exact ⟨t, (Utf8.decode?_eq_some_iff.mp decoded).symm⟩
      | choice names =>
        obtain ⟨t, -, same⟩ := List.any_eq_true.mp admits
        exact ⟨t, beq_iff_eq.mp same⟩
    rw [found, Utf8.lossy_encode]
  · intro found
    exact ⟨_, found, Utf8.lossy_encode s⟩

theorem Way.wellGiven {path : List String} (way : Way name g path leaf)
    (isName : IsOptionName name) (long : name ∉ shortFlags.map (·.2)) {chosen : Chosen}
    (h : read g fuel {} arguments = .ok chosen) (ends : chosen.path = path) :
    WellGiven leaf chosen.last := by
  obtain ⟨isRoot, rest, reads, -⟩ := way.exists_reads isName long h ends
  exact reads.wellGiven (wellGiven_nil leaf)

/-- The value of an option of the command is the one that stands with it on the command line. -/
theorem Way.value?_eq_some_iff {path : List String} (way : Way name g path leaf)
    (isName : IsOptionName name) (long : name ∉ shortFlags.map (·.2)) (notFlag : name ∉ leaf.flags)
    {chosen : Chosen} (h : read g fuel {} arguments = .ok chosen) (ends : chosen.path = path)
    {value : Bytes} : chosen.last.value? name = some value ↔ StandsWith arguments name value := by
  obtain ⟨isRoot, rest, reads, values, -⟩ := way.exists_reads isName long h ends
  have well := reads.wellGiven (wellGiven_nil leaf)
  have given := reads.mem_values_iff isName notFlag value
  rw [behind_none, or_iff_left (standsWith_nil name value), or_iff_right List.not_mem_nil] at given
  rw [well.value?_eq_some_iff, given, values]

theorem long_of_not_mem_commonFlags (notCommon : name ∉ commonFlags) :
    name ∉ shortFlags.map (·.2) := by
  have short : ∀ f ∈ shortFlags.map (·.2), f ∈ commonFlags := by decide
  exact fun mem => notCommon (short name mem)

theorem Way.path_iff {path : List String} (way : Way name g path leaf)
    (isName : IsOptionName name) (notCommon : name ∉ commonFlags) (notFlag : name ∉ leaf.flags)
    {chosen : Chosen} (h : read g fuel {} arguments = .ok chosen) (ends : chosen.path = path)
    (p : Path) : chosen.last.path? name = some p ↔ StandsWith arguments name p.bytes :=
  path?_eq_some_iff.trans
    (way.value?_eq_some_iff isName (long_of_not_mem_commonFlags notCommon) notFlag h ends)

theorem Way.text_iff {path : List String} (way : Way name g path leaf)
    (isName : IsOptionName name) (notCommon : name ∉ commonFlags) (notFlag : name ∉ leaf.flags)
    {kind : ValueKind} (known : leaf.options.lookup name = some kind) (notPath : kind ≠ .path)
    {chosen : Chosen} (h : read g fuel {} arguments = .ok chosen) (ends : chosen.path = path)
    (s : String) : chosen.last.text? name = some s ↔ StandsWith arguments name (Utf8.encode s) := by
  have long := long_of_not_mem_commonFlags notCommon
  have well := way.wellGiven isName long h ends
  rw [well.text?_eq_some_iff known notPath, way.value?_eq_some_iff isName long notFlag h ends]

theorem Way.triple_iff {path : List String} (way : Way name g path leaf)
    (isName : IsOptionName name) (notCommon : name ∉ commonFlags) (notFlag : name ∉ leaf.flags)
    (known : leaf.options.lookup name = some .text)
    {chosen : Chosen} (h : read g fuel {} arguments = .ok chosen) (ends : chosen.path = path)
    (s : String) : (chosen.last.text? name).map Triple.mk = some ⟨s⟩ ↔
      StandsWith arguments name (Utf8.encode s) := by
  rw [← way.text_iff isName notCommon notFlag known (by simp) h ends]
  simp

/-- A flag of the command is given if it stands on the command line. -/
theorem Way.hasFlag_iff {path : List String} (way : Way name g path leaf)
    (isName : IsOptionName name) (notCommon : name ∉ commonFlags)
    (notOption : leaf.options.lookup name = none)
    {chosen : Chosen} (h : read g fuel {} arguments = .ok chosen) (ends : chosen.path = path) :
    chosen.last.hasFlag name = true ↔ dashed name ∈ arguments := by
  have long := long_of_not_mem_commonFlags notCommon
  obtain ⟨isRoot, rest, reads, -, flags⟩ := way.exists_reads isName long h ends
  have given := reads.mem_flags_iff isName notOption long
  rw [behind_none, or_iff_left List.not_mem_nil, or_iff_right List.not_mem_nil] at given
  rw [Given.hasFlag, List.contains_iff_mem, given, flags]

/-- What a command line asks for is what was given to its last command. -/
theorem exists_read_of_invocation {i : Invocation}
    (parsed : Invocation.ofArguments arguments = .ok i) :
    ∃ chosen, read grammar 3 {} arguments = .ok chosen ∧
      Invocation.requestOf chosen.path chosen.last = some i.request := by
  obtain ⟨chosen, taken, parsed⟩ := exists_of_bind_eq_ok parsed
  refine ⟨chosen, taken, ?_⟩
  split at parsed
  · next request requested =>
    obtain rfl := Except.ok.inj parsed
    exact requested
  · cases parsed

/-! ### Writing -/

/-- Options that a command takes, each once and with a value that it admits, are given as they are
written. -/
theorem readFrom_joined (names : ∀ o ∈ g.options, IsOptionName o.1) {isRoot : Bool}
    {values : List (String × Bytes)} {given : Given}
    (well : WellGiven g { given with values := given.values ++ values }) :
    readFrom g isRoot given (values.map fun o => joined o.1 o.2) =
      .ok ({ given with values := given.values ++ values }, none) := by
  induction values generalizing given with
  | nil => simp [readFrom]
  | cons o values ih =>
    obtain ⟨f, v⟩ := o
    obtain ⟨kind, known, admits⟩ := well.admitted (f, v) (by simp)
    have isName : IsOptionName f := by
      obtain ⟨before, behind, split, -⟩ := List.lookup_eq_some_iff.mp known
      exact names (f, kind) (by simp [split])
    have gives : giveValue g given f v = .ok { given with values := given.values ++ [(f, v)] } := by
      have new : given.value? f = none := by
        have once := well.once
        rw [List.map_append, List.nodup_append] at once
        rw [Given.value?, lookup_eq_none_iff_not_mem]
        exact fun mem => once.2.2 f mem f (by simp) rfl
      simp [giveValue, known, admits, new]
    rw [List.append_cons] at well
    have more : readFrom g isRoot { given with values := given.values ++ [(f, v)] } _ = _ :=
      ih well
    rw [List.map_cons, readFrom, List.append_cons]
    simp only [joined, dashed, List.cons_append, of_split isName.whole, Utf8.decode?_encode, gives]
    exact more

end TargetQuery.CommandLine
