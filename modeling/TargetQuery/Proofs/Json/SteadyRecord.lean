import TargetQuery.Proofs.Json.RecordReading
import TargetQuery.Proofs.Json.SteadyTokens

/-!
# Records that are cut off

A value between brackets or quotes ends with a byte of its own, so none of it is read before that
byte. A cut in front of the byte is noticed as a fault, never as a field that is missing.
-/

namespace TargetQuery.Json

open Grammar Reader

variable {α σ : Type}

/-! ### Scalars -/

theorem steady_boolValue : Steady never boolValue := by
  refine steady_peekToken (starved_failNext .endInValue) fun b => ?_
  simp only
  split
  · have letters := words_not_space rue (by simp)
    exact steadyFront_skip ((steady_word letters).bind fun _ => steady_pure true)
  split
  · have letters := words_not_space alse (by simp)
    exact steadyFront_skip ((steady_word letters).bind fun _ => steady_pure false)
  · exact (stuck_mistyped "a boolean").steady.front

theorem steady_textValue (expected : String) : Steady never (textValue expected) := by
  refine steady_peekToken (starved_failNext .endInValue) fun b => ?_
  simp only
  split
  · exact steadyFront_skip steady_stringToken
  · exact (stuck_mistyped expected).steady.front

theorem steady_nullable {r : Reader α} (steady : Steady never r) (hungry : Hungry r) :
    Steady never (nullable r) := by
  rw [nullable_eq]
  refine steady_peekToken ?_ fun b => ?_
  · rw [if_neg (Option.some_ne_none letterN).symm]
    exact (hungry.map some).starved
  · split
    · have letters := words_not_space ull (by simp)
      exact steadyFront_skip ((steady_word letters).bind fun _ => steady_pure none)
    · exact (steady.map_never some).front

/-! ### Between the values -/

theorem steady_elementFollows (first : Bool) : Steady never (elementFollows first) := by
  refine steady_peekToken (starved_failNext .endInList) fun b => ?_
  simp only
  split
  · exact (steady_pure false).front
  split
  · exact (steady_pure true).front
  split
  · refine steadyFront_skip (steady_peekToken (starved_failNext .endInValue) fun b => ?_)
    simp only
    split
    · exact (stuck_failNext .trailingComma).steady.front
    · exact (steady_pure true).front
  · exact (stuck_failNext .listContinuation).steady.front

theorem steadyFront_name : SteadyFront never (skip >>= fun _ => some <$> stringToken) :=
  steadyFront_skip (steady_stringToken.map_never some)

theorem steady_nameFollows (first : Bool) : Steady never (nameFollows first) := by
  refine steady_peekToken (starved_failNext .endInObject) fun b => ?_
  simp only
  split
  · exact (steady_pure none).front
  split
  · split
    · exact steadyFront_name
    · exact (stuck_failNext .keyNotString).steady.front
  split
  · refine steadyFront_skip (steady_peekToken (starved_failNext .endInValue) fun b => ?_)
    simp only
    split
    · exact steadyFront_name
    split
    · exact (stuck_failNext .trailingComma).steady.front
    · exact (stuck_failNext .keyNotString).steady.front
  · exact (stuck_failNext .objectContinuation).steady.front

theorem hungry_nameFollows (first : Bool) : Hungry (nameFollows first) :=
  hungry_peekToken (starved_failNext .endInObject)

theorem steady_colonToken : Steady never colonToken := by
  refine steady_peekToken (starved_failNext .endInObject) fun b => ?_
  simp only
  split
  · exact steadyFront_skip (steady_pure ())
  · exact (stuck_failNext .colonExpected).steady.front

theorem steadyFront_openBracket (room : Nat) : SteadyFront never (openBracket room) := by
  rw [openBracket]
  split
  · exact (stuck_failNext .tooDeep).steady.front
  · exact steadyFront_skip (steady_pure (room - 1))

/-! ### Brackets -/

/-- A cut between a value and its closing bracket shows as a missing bracket. -/
theorem Closing.Seeks.steady {close : Closing} {b : UInt8} (seeks : close.Seeks b) (a : α) :
    Steady never (enclosed close (pure (.ok a))) := by
  intro n p q
  have closing : ∀ s, enclosed close (pure (Except.ok a)) ⟨n, s⟩
      = (close ⟨n, s⟩).1.map fun _ => (a, (close ⟨n, s⟩).2) := fun _ => rfl
  rw [closing, closing]
  rcases skipSpace_append n p q with ⟨u, x, w, rfl, hp, hq⟩ | ⟨hp, hq⟩
  · refine Agrees.shift ?_
    by_cases same : x = b
    · subst same
      rw [seeks.found hp, seeks.found hq]
      exact .same (u := [x]) rfl
    · obtain ⟨e, d, fails⟩ := seeks.other hp same
      obtain ⟨e', d', fails'⟩ := seeks.other hq same
      rw [fails, fails']
      exact .wrong
  · obtain ⟨f, missing⟩ := seeks.missing hp
    rw [missing]
    refine .short fun blank => ?_
    rw [skipSpace_blank _ blank] at hq
    obtain ⟨f', missing'⟩ := seeks.missing hq
    rw [missing']
    exact ⟨_, rfl⟩

/-- A bracket closes behind its content. -/
theorem enclosed_eq (close : Closing) (content : Reader (Except Mismatch α)) :
    enclosed close content = content >>= fun verdict => enclosed close (pure verdict) := by
  funext c
  cases h : content c with
  | error e => simp [enclosed, bind, StateT.bind, Except.bind, h]
  | ok result =>
    simp only [enclosed, bind, StateT.bind, Except.bind, h]
    rfl

theorem steady_enclosed {close : Closing} {b : UInt8} {content : Reader (Except Mismatch α)}
    (seeks : close.Seeks b) (h : Steady never content) : Steady never (enclosed close content) := by
  rw [enclosed_eq]
  refine h.bind fun verdict => ?_
  cases verdict with
  | ok a => exact seeks.steady a
  | error m =>
    refine Stuck.steady fun c x h => ?_
    cases h

/-! ### Lists -/

/-- The fuel only has to be enough for the text at hand. -/
theorem agrees_elements {item : Reader α} {meaning : Tree → Option α} (steady : Steady never item)
    (sound : Sound item meaning) {fuel fuel' : Nat} {first : Bool} {n : Nat} {p q : Bytes}
    (enough : p.length < fuel) (enough' : p.length + q.length < fuel') :
    Agrees never n p q (elements item fuel first ⟨n, p⟩)
      (elements item fuel' first ⟨n, p ++ q⟩) := by
  induction fuel generalizing fuel' first n p with
  | zero => exact absurd enough (Nat.not_lt_zero _)
  | succ fuel ih =>
    obtain ⟨fuel', rfl⟩ := Nat.exists_eq_add_one_of_ne_zero (Nat.ne_zero_of_lt enough')
    rw [elements, elements]
    refine (steady_elementFollows first n p q).bind (fun follows u w e _ => ?_) fun _ => False.elim
    cases follows with
    | false => exact steady_pure [] _ w q
    | true =>
      refine (steady _ w q).bind (fun a v w' e' run => ?_) fun _ => False.elim
      have shorter : w'.length < w.length := sound.length_lt run
      have : w.length ≤ p.length := by simp [e]
      refine (ih (by omega) (by omega)).bind (fun more _ w _ _ => ?_) fun _ => False.elim
      exact steady_pure (a :: more) _ w q

theorem steady_listValue {item : Nat → Reader α} {meaning : Tree → Option α}
    (steady : ∀ room, Steady never (item room)) (sound : ∀ room, Sound (item room) meaning)
    (room : Nat) : Steady never (listValue item room) := by
  refine steady_peekToken (starved_failNext .endInValue) fun b => ?_
  simp only
  split
  · refine (steadyFront_openBracket room).bind fun room => ?_
    refine steady_enclosed closeList_seeks (Steady.map_never ?_ _)
    exact fun n p q => agrees_elements (steady room) (sound room) (Nat.lt_succ_self _) (by simp)
  · exact (stuck_mistyped "a sequence").steady.front

/-! ### Objects -/

theorem nameFollows_length_lt {first : Bool} {n : Nat} {s : Bytes} {name : String} {c : Cursor}
    (h : nameFollows first ⟨n, s⟩ = .ok (some name, c)) : c.rest.length < s.length := by
  obtain ⟨l, a, lead, before, quoted⟩ := nameFollows_eq_ok h
  have quoted := quoted.length_lt
  have before := before.length_le
  cases first with
  | true =>
    obtain rfl : s = l := lead
    omega
  | false =>
    have lead := Blank.length_le (lead : Blank s (Ascii.comma :: l))
    rw [List.length_cons] at lead
    omega

/-- The verdict that a fold goes on. -/
def GoesOn (verdict : Except Mismatch σ) : Prop := ∃ d, verdict = .ok d

/-- Members do not depend on a cut, with fuel enough for both texts. -/
theorem agrees_foldMembers {step : σ → String → Reader (Except Mismatch σ)}
    (steady : ∀ d name, Steady GoesOn (step d name)) {fuel fuel' : Nat} {first : Bool} {d : σ}
    {n : Nat} {p q : Bytes} (enough : p.length < fuel) (enough' : p.length + q.length < fuel') :
    Agrees never n p q (foldMembers step fuel first d ⟨n, p⟩)
      (foldMembers step fuel' first d ⟨n, p ++ q⟩) := by
  induction fuel generalizing fuel' first d n p with
  | zero => exact absurd enough (Nat.not_lt_zero _)
  | succ fuel ih =>
    obtain ⟨fuel', rfl⟩ := Nat.exists_eq_add_one_of_ne_zero (Nat.ne_zero_of_lt enough')
    rw [foldMembers, foldMembers]
    refine (steady_nameFollows first n p q).bind (fun name u w e named => ?_) fun _ => False.elim
    cases name with
    | none => exact steady_pure (Except.ok d) _ w q
    | some name =>
      have shorter : w.length < p.length := nameFollows_length_lt named
      -- A step that stops at the cut needs another name behind it, or the closing brace.
      refine (steady d name _ w q).bind (fun verdict v w' e' _ => ?_) fun verdict goesOn _ => ?_
      · cases verdict with
        | error m => exact steady_pure (Except.error m) _ w' q
        | ok d =>
          have : w'.length ≤ w.length := by simp [e']
          exact ih (by omega) (by omega)
      · obtain ⟨d, rfl⟩ := goesOn
        obtain ⟨fuel, rfl⟩ : ∃ k, fuel = k + 1 := ⟨fuel - 1, by omega⟩
        obtain ⟨fuel', rfl⟩ : ∃ k, fuel' = k + 1 := ⟨fuel' - 1, by omega⟩
        exact ⟨((hungry_nameFollows false).bind _).starved, (hungry_nameFollows false).bind _⟩

/-! ### Records -/

namespace Record

variable {r : Record σ α}

theorem steady_memberStep {room : Nat}
    (steady : ∀ field ∈ r.fields, ∀ d, Steady never (field.read room d)) (d : σ) (name : String) :
    Steady GoesOn (r.memberStep room d name) := by
  rw [memberStep]
  cases found : r.fields.find? (·.name == name) with
  | none =>
    refine steady_colonToken.bind fun _ => ?_
    exact steady_skipValue.map (fun _ => Except.ok d) fun _ _ => ⟨d, rfl⟩
  | some field =>
    by_cases filled : field.filled d = true
    · simp only [filled, if_true]
      exact steady_pure _
    · simp only [filled]
      refine steady_colonToken.bind fun _ => ?_
      exact (steady field (find?_eq_some found).1 d).map Except.ok fun _ => False.elim

theorem steady_listFields {room : Nat} {fields : List (RecordField σ)}
    (steady : ∀ field ∈ fields, ∀ d, Steady never (field.read room d)) (i : Nat) (d : σ) :
    Steady never (r.listFields room fields i d) := by
  induction fields generalizing i d with
  | nil => exact steady_pure (Except.ok d)
  | cons field fields ih =>
    rw [List.forall_mem_cons] at steady
    refine (steady_elementFollows (i == 0)).bind fun follows => ?_
    split
    · exact (steady.1 d).bind fun d => ih steady.2 (i + 1) d
    split
    · exact ih steady.2 i d
    · exact steady_pure _

/-- A record does not depend on a cut, if its fields do not. -/
theorem steady_read (steady : ∀ field ∈ r.fields, ∀ room d, Steady never (field.read room d))
    (room : Nat) : Steady never (r.read room) := by
  refine steady_peekToken (starved_failNext .endInValue) fun b => ?_
  simp only
  split
  · refine (steadyFront_openBracket room).bind fun room => ?_
    refine steady_enclosed closeList_seeks (Steady.map_never ?_ _)
    exact steady_listFields (fun field member => steady field member room) 0 r.empty
  split
  · refine (steadyFront_openBracket room).bind fun room => ?_
    refine steady_enclosed closeObject_seeks (Steady.map_never ?_ _)
    have step := steady_memberStep fun field member => steady field member room
    exact fun n p q => agrees_foldMembers step (Nat.lt_succ_self _) (by simp)
  · exact (stuck_mistyped r.title).steady.front

theorem hungry_read (room : Nat) : Hungry (r.read room) :=
  hungry_peekToken (starved_failNext .endInValue)

end Record

end TargetQuery.Json
