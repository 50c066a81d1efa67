import Mathlib.Data.List.Basic
import TargetQuery.Json.Container
import TargetQuery.Proofs.Json.ContentGrammar
import TargetQuery.Proofs.Json.ScalarReading

/-!
# Readers of lists

What a reader of a bracket makes of it, given what it makes of the content, and what a reader of
elements makes of them, given what it makes of one. The fuel never runs out, because every element
takes a byte at least.
-/

namespace TargetQuery.Json

open Grammar Reader

variable {α σ : Type}

/-! ### Brackets -/

theorem reads_openBracket {room : Nat} (enough : 2 ≤ room) (b : UInt8) (s : Bytes) :
    Reads (openBracket room) (b :: s) (room - 1) s := by
  have h : ¬ room ≤ 1 := by omega
  intro n
  refine ⟨n + 1, ?_⟩
  rw [openBracket, if_neg h]
  rfl

theorem openBracket_eq_ok {room room' n : Nat} {b : UInt8} {s : Bytes} {c : Cursor}
    (h : openBracket room ⟨n, b :: s⟩ = .ok (room', c)) : room' = room - 1 ∧ c.rest = s := by
  rw [openBracket] at h
  split at h
  · exact absurd h (stuck_failNext _ _ _)
  · obtain ⟨rfl, rfl⟩ := pure_eq_ok.mp (skip_bind_cons n b s ▸ h)
    exact ⟨rfl, rfl⟩

/-- The content ends in a mismatch, as an error or as a verdict. -/
def Rejected (result : Except Error (Except Mismatch σ × Cursor)) : Prop :=
  Misfits result ∨ ∃ m c, result = .ok (.error m, c)

/-- A verdict on the content of a bracket. -/
def Judges (value : Option σ) (rest : Bytes) :
    Except Error (Except Mismatch σ × Cursor) → Prop :=
  match value with
  | some d => Leaves (.ok d) rest
  | none => Rejected

theorem judges_ok {r : Reader σ} {value : Option σ} {s rest : Bytes}
    (h : Ends r s (Meets value rest)) :
    Ends ((Except.ok <$> r : Reader (Except Mismatch σ))) s (Judges value rest) := by
  cases value with
  | some d => exact Reads.map Except.ok h
  | none => exact fun n => .inl (Refuses.map Except.ok h n)

/-- A way to close a bracket with the given byte. -/
structure Closing.Closes (close : Closing) (b : UInt8) : Prop where
  reads : ∀ n rest, close ⟨n, b :: rest⟩ = (.ok (), ⟨n + 1, rest⟩)
  sound : ∀ n s c, close ⟨n, s⟩ = (.ok (), c) → Blank s (b :: c.rest)

/-- What closing a bracket does behind white space: at the end of the text and at any byte but the
given one there is a fault. -/
structure Closing.Seeks (close : Closing) (b : UInt8) : Prop where
  missing : ∀ {c m}, c.skipSpace = ⟨m, []⟩ → ∃ f, close c = (.error ⟨.fault f, m⟩, ⟨m, []⟩)
  found : ∀ {c m s}, c.skipSpace = ⟨m, b :: s⟩ → close c = (.ok (), ⟨m + 1, s⟩)
  other : ∀ {c m x s}, c.skipSpace = ⟨m, x :: s⟩ → x ≠ b → ∃ e d, close c = (.error e, d)

theorem closeList_seeks : Closing.Seeks closeList Ascii.closeBracket where
  missing h := ⟨.endInList, by simp only [closeList, h]⟩
  found h := by
    simp only [closeList, h]
    rfl
  other h ne := by
    simp only [closeList, h, beq_iff_eq, ne, if_false]
    split
    · exact ⟨_, _, rfl⟩
    · exact ⟨_, _, rfl⟩

theorem closeObject_seeks : Closing.Seeks closeObject Ascii.closeBrace where
  missing h := ⟨.endInObject, by simp only [closeObject, h]⟩
  found h := by
    simp only [closeObject, h]
    rfl
  other h ne := by
    simp only [closeObject, h, beq_iff_eq, ne, if_false]
    split
    · exact ⟨_, _, rfl⟩
    · exact ⟨_, _, rfl⟩

/-- A closing that looks for a bracket finds it behind any white space. -/
theorem Closing.Seeks.closes {close : Closing} {b : UInt8} (seeks : close.Seeks b)
    (notSpace : isSpace b = false) : close.Closes b where
  reads n rest := seeks.found (by simp [skipSpace_cons, notSpace])
  sound n s c h := by
    obtain ⟨before, _⟩ := blank_skipSpace n s
    generalize hm : Cursor.skipSpace ⟨n, s⟩ = mid at before
    obtain ⟨m, a⟩ := mid
    cases a with
    | nil =>
      obtain ⟨f, missing⟩ := seeks.missing hm
      rw [missing] at h
      cases h
    | cons x a =>
      by_cases same : x = b
      · subst same
        rw [seeks.found hm] at h
        cases h
        exact before
      · obtain ⟨e, d, other⟩ := seeks.other hm same
        rw [other] at h
        cases h

theorem closeList_closes : Closing.Closes closeList Ascii.closeBracket :=
  closeList_seeks.closes (by decide)

theorem closeObject_closes : Closing.Closes closeObject Ascii.closeBrace :=
  closeObject_seeks.closes (by decide)

variable {close : Closing} {b : UInt8} {content : Reader (Except Mismatch α)} {s rest : Bytes}

/-- What stands in front of its closing bracket has the value of the content. -/
theorem meets_enclosed (closes : close.Closes b) {value : Option α}
    (h : Ends content s (Judges value (b :: rest))) :
    Ends (enclosed close content) s (Meets value rest) := by
  intro n
  have h := h n
  cases value with
  | some x =>
    obtain ⟨m, h⟩ := h
    exact ⟨m + 1, by simp [enclosed, bind, Except.bind, h, closes.reads, Except.map]⟩
  | none =>
    rcases h with ⟨m, k, h⟩ | ⟨m, mid, h⟩
    · exact ⟨m, k, by simp [enclosed, bind, Except.bind, h]⟩
    · exact ⟨m, (close mid).2.offset, by simp [enclosed, bind, Except.bind, h]⟩

/-- What is enclosed was read with the bracket behind it. -/
theorem enclosed_eq_ok (closes : close.Closes b) {n : Nat} {x : α} {c : Cursor}
    (h : enclosed close content ⟨n, s⟩ = .ok (x, c)) :
    ∃ mid, content ⟨n, s⟩ = .ok (.ok x, mid) ∧ Blank mid.rest (b :: c.rest) := by
  cases hc : content ⟨n, s⟩ with
  | error e => simp [enclosed, bind, Except.bind, hc] at h
  | ok result =>
    obtain ⟨verdict, mid⟩ := result
    simp only [enclosed, bind, Except.bind, hc] at h
    cases verdict with
    | error m => cases h
    | ok y =>
      obtain ⟨closed, after, hclose⟩ : ∃ closed after, close mid = (closed, after) :=
        ⟨_, _, rfl⟩
      rw [hclose] at h
      cases closed with
      | error e => cases h
      | ok =>
        cases h
        exact ⟨mid, rfl, closes.sound _ _ _ hclose⟩

/-! ### The elements of a list -/

/-- No value begins with the byte that closes a list. -/
theorem opens_ne_closeBracket {t : Tree} {b : UInt8} (h : t.Opens b) : b ≠ Ascii.closeBracket := by
  rintro rfl
  cases t with
  | number _ => exact absurd h (by simp +decide [Tree.Opens])
  | bool value => cases value <;> exact absurd h (by simp +decide [Tree.Opens])
  | null | text | list | object => exact absurd h (by simp +decide [Tree.Opens])

theorem reads_elementFollows_true {first : Bool} {l a c : Bytes} {t : Tree}
    (lead : Lead first s l) (before : Blank l a) (value : Grammar.Value t a c) :
    Reads (elementFollows first) s true a := by
  obtain ⟨b, more, rfl, opens⟩ := value.head
  have other := opens_ne_closeBracket opens
  cases first with
  | true =>
    obtain rfl : s = l := lead
    refine Ends.peekToken before value.atToken ?_
    simp only [List.head?_cons, beq_iff_eq, other, if_false, if_true]
    exact reads_pure true _
  | false =>
    refine Ends.peekToken (lead : Blank s (Ascii.comma :: l)) (atToken_cons rfl _) ?_
    refine Ends.skip (Ends.peekToken before value.atToken ?_)
    simp only [List.head?_cons, beq_iff_eq, other, if_false]
    exact reads_pure true _

theorem reads_elementFollows_false (first : Bool)
    (h : Blank s (Ascii.closeBracket :: rest)) :
    Reads (elementFollows first) s false (Ascii.closeBracket :: rest) :=
  Ends.peekToken h (atToken_cons rfl _) (reads_pure false _)

/-- The reader knows from the next byte whether an element follows. -/
theorem elementFollows_eq_ok {first : Bool} {n : Nat} {follows : Bool} {c : Cursor}
    (h : elementFollows first ⟨n, s⟩ = .ok (follows, c)) :
    if follows then ∃ l, Lead first s l ∧ Blank l c.rest
    else ∃ rest, c.rest = Ascii.closeBracket :: rest ∧ Blank s c.rest := by
  obtain ⟨m, a, before, _, h⟩ := peekToken_bind_eq_ok h
  cases a with
  | nil => exact absurd h (stuck_failNext _ _ _)
  | cons b a =>
    simp only [List.head?_cons] at h
    split at h
    · next e =>
      obtain rfl := eq_of_beq e
      obtain ⟨rfl, rfl⟩ := pure_eq_ok.mp h
      exact ⟨a, rfl, before⟩
    split at h
    · next e =>
      obtain ⟨rfl, rfl⟩ := pure_eq_ok.mp h
      exact ⟨s, by simp [Lead, e], before⟩
    split at h
    · next notFirst e =>
      obtain rfl := eq_of_beq e
      rw [skip_bind_cons] at h
      obtain ⟨k, d, between, _, h⟩ := peekToken_bind_eq_ok h
      cases d with
      | nil => exact absurd h (stuck_failNext _ _ _)
      | cons x d =>
        simp only [List.head?_cons] at h
        split at h
        · exact absurd h (stuck_failNext _ _ _)
        · obtain ⟨rfl, rfl⟩ := pure_eq_ok.mp h
          exact ⟨a, by simpa [Lead, notFirst] using before, between⟩
    · exact absurd h (stuck_failNext _ _ _)

variable {item : Reader α} {meaning : Tree → Option α} {kind : Tree → Prop}

/-- Elements are read one by one, and together they have a value or none. -/
theorem meets_elements (exact : Exact item meaning kind) (first : Bool) {items : List Tree}
    (legible : ∀ t ∈ items, t.Legible) (kinds : ∀ t ∈ items, kind t)
    (h : ItemsFrom first items s rest) {fuel : Nat} (enough : items.length < fuel) :
    Ends (elements item fuel first) s
      (Meets (items.mapM meaning) (Ascii.closeBracket :: rest)) := by
  induction items generalizing first s fuel with
  | nil =>
    obtain ⟨fuel, rfl⟩ := Nat.exists_eq_add_of_lt enough
    have follows := reads_elementFollows_false first (itemsFrom_nil_iff.mp h)
    exact follows.bind (reads_pure [] _)
  | cons t items ih =>
    obtain ⟨fuel, rfl⟩ := Nat.exists_eq_add_of_lt enough
    obtain ⟨l, a, b, lead, before, value, more⟩ := itemsFrom_cons_iff.mp h
    rw [List.forall_mem_cons] at legible kinds
    have follows := reads_elementFollows_true lead before value
    have first := exact t a a b legible.1 kinds.1 (.nil a) value more.delimited
    have enough : items.length < items.length + 1 + fuel := by omega
    have others := ih false legible.2 kinds.2 more enough
    rw [List.mapM_cons]
    refine follows.bind ?_
    cases hx : meaning t with
    | none =>
      rw [hx] at first
      exact Refuses.bind first _
    | some x =>
      rw [hx] at first
      refine Reads.bind first ?_
      cases hxs : items.mapM meaning with
      | none =>
        rw [hxs] at others
        exact Refuses.bind others _
      | some xs =>
        rw [hxs] at others
        exact Reads.bind others (reads_pure _ _)

/-- Elements that were read stand in the text, one behind the other. -/
theorem elements_eq_ok (sound : Sound item meaning) (first : Bool) {fuel n : Nat} {xs : List α}
    {c : Cursor} (h : elements item fuel first ⟨n, s⟩ = .ok (xs, c)) :
    ∃ items rest, c.rest = Ascii.closeBracket :: rest ∧ ItemsFrom first items s rest ∧
      items.mapM meaning = some xs := by
  induction fuel generalizing first n s xs with
  | zero => exact absurd h (stuck_failNext _ _ _)
  | succ fuel ih =>
    obtain ⟨follows, ⟨m, a⟩, hf, h⟩ := bind_eq_ok.mp h
    have hf := elementFollows_eq_ok hf
    cases follows with
    | false =>
      obtain ⟨rest, rfl, before⟩ := hf
      obtain ⟨rfl, rfl⟩ := pure_eq_ok.mp h
      exact ⟨[], rest, rfl, itemsFrom_nil_iff.mpr before, rfl⟩
    | true =>
      obtain ⟨l, lead, before⟩ := hf
      obtain ⟨x, ⟨k, b⟩, hx, h⟩ := bind_eq_ok.mp h
      obtain ⟨xs, mid, hxs, h⟩ := bind_eq_ok.mp h
      obtain ⟨rfl, rfl⟩ := pure_eq_ok.mp h
      obtain ⟨t, a', before', value, meant⟩ := sound m a x ⟨k, b⟩ hx
      obtain ⟨items, rest, e, more, meanings⟩ := ih false hxs
      refine ⟨t :: items, rest, e, ?_, ?_⟩
      · exact itemsFrom_cons_iff.mpr ⟨l, a', b, lead, before.trans before', value, more⟩
      · simp [List.mapM_cons, meant, meanings]

/-- The elements behind a bracket and the bracket that closes the list. -/
theorem items_of_enclosed (sound : Sound item meaning) {n : Nat} {xs : List α} {c : Cursor}
    (h : enclosed closeList (.ok <$> withFuel fun fuel => elements item fuel true) ⟨n, s⟩
      = .ok (xs, c)) : ∃ items, Items items s c.rest ∧ items.mapM meaning = some xs := by
  obtain ⟨mid, run, close⟩ := enclosed_eq_ok closeList_closes h
  obtain ⟨ys, read, same⟩ := map_eq_ok.mp run
  obtain rfl : ys = xs := Except.ok.inj same
  obtain ⟨items, rest, e, value, meant⟩ := elements_eq_ok sound true read
  rw [e] at close
  obtain ⟨-, rfl⟩ := List.cons.inj (close.eq_of_atToken (atToken_cons rfl _))
  exact ⟨items, value, meant⟩

/-- A list has a value if all of its elements have one. -/
theorem exact_listValue {item : Nat → Reader α} {meaning : Tree → Option α}
    {room : Nat} (enough : 2 ≤ room) (exact : Exact (item (room - 1)) meaning fun _ => True) :
    Exact (listValue item room) (fun t => t.list? meaning) fun _ => True := by
  intro t s a rest legible _ before value delimited
  obtain ⟨b, more, rfl, opens⟩ := value.head
  refine Ends.peekToken before value.atToken ?_
  by_cases bracket : b = Ascii.openBracket
  · obtain ⟨items, rfl⟩ := opens.kind.2.2.2.2.1 bracket
    cases legible with
    | list legible =>
      cases value with
      | list value =>
        have inside := meets_elements exact true legible (fun _ _ => trivial) value
          (Nat.lt_succ_of_le (Nat.le_trans (Nat.le_add_right _ _) value.length_le))
        exact (reads_openBracket enough _ _).bind
          (meets_enclosed closeList_closes (judges_ok inside))
  · have other : t.list? meaning = none := by
      cases t with
      | list => exact absurd opens bracket
      | _ => rfl
    simp only [List.head?_cons, beq_iff_eq, bracket, if_false, other]
    exact refuses_mistyped legible value delimited _

theorem sound_listValue {item : Nat → Reader α} {meaning : Tree → Option α} {room : Nat}
    (sound : Sound (item (room - 1)) meaning) :
    Sound (listValue item room) fun t => t.list? meaning := by
  intro n s xs c h
  obtain ⟨m, a, before, _, h⟩ := peekToken_bind_eq_ok h
  cases a with
  | nil => exact absurd h (stuck_failNext _ _ _)
  | cons b a =>
    simp only [List.head?_cons] at h
    split at h
    · next e =>
      obtain rfl := eq_of_beq e
      obtain ⟨_, ⟨k, a'⟩, opened, inside⟩ := bind_eq_ok.mp h
      obtain ⟨rfl, rfl⟩ := openBracket_eq_ok opened
      obtain ⟨items, value, meant⟩ := items_of_enclosed sound inside
      exact ⟨.list items, _, before, .list value, meant⟩
    · exact absurd h (stuck_mistyped _ _ _)

end TargetQuery.Json
