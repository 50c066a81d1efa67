import TargetQuery.Proofs.Json.NumberGrammar

/-!
# Texts of tokens and values

No rule of the grammar looks at the rest that it leaves: a rule takes a certain text off the front,
and takes the same text off in front of any other rest. So a part of a text can be exchanged without
a look at the parts before it.
-/

namespace TargetQuery.Json.Grammar

/-! ### Tokens -/

theorem Framed.blank : Framed Blank := by
  intro s rest h
  induction h with
  | nil s => exact ⟨[], rfl, .nil⟩
  | @cons b s rest space _ ih =>
    obtain ⟨token, rfl, frame⟩ := ih
    exact ⟨b :: token, rfl, fun more => .cons space (frame more)⟩

theorem Framed.quad (u : Nat) : Framed (Quad u) := by
  rintro s rest h
  cases h with
  | @mk a b c d w x y z _ ha hb hc hd =>
    exact ⟨[a, b, c, d], rfl, fun more => .mk more ha hb hc hd⟩

theorem Framed.escape (c : Char) : Framed (Escape c) := by
  rintro s rest h
  cases h with
  | @letter b _ _ hb => exact ⟨[Ascii.backslash, b], rfl, fun more => .letter more hb⟩
  | unit hu alone =>
    obtain ⟨digits, rfl, frame⟩ := Framed.quad _ _ _ hu
    exact ⟨Ascii.backslash :: letterU :: digits, rfl, fun more => .unit (frame more) alone⟩
  | pair hl low high ht low' high' =>
    obtain ⟨trail, rfl, frameT⟩ := Framed.quad _ _ _ ht
    obtain ⟨lead, rfl, frameL⟩ := Framed.quad _ _ _ hl
    refine ⟨Ascii.backslash :: letterU :: (lead ++ Ascii.backslash :: letterU :: trail),
      by simp, fun more => ?_⟩
    have first := frameL (Ascii.backslash :: letterU :: (trail ++ more))
    simp only [List.cons_append, List.append_assoc]
    exact .pair first low high (frameT more) low' high'

theorem Framed.chars (cs : List Char) : Framed (Chars cs) := by
  intro s rest h
  induction h with
  | close rest => exact ⟨[Ascii.doubleQuote], rfl, .close⟩
  | @plain c cs s rest visible notQuote notBackslash _ ih =>
    obtain ⟨token, rfl, frame⟩ := ih
    refine ⟨Utf8.encodeChar c ++ token, by rw [List.append_assoc], fun more => ?_⟩
    rw [List.append_assoc]
    exact .plain visible notQuote notBackslash (frame more)
  | escape he _ ih =>
    obtain ⟨token, rfl, frame⟩ := ih
    obtain ⟨sequence, rfl, frameE⟩ := Framed.escape _ _ _ he
    refine ⟨sequence ++ token, by rw [List.append_assoc], fun more => ?_⟩
    rw [List.append_assoc]
    exact .escape (frameE _) (frame more)

theorem Framed.looseChars : Framed LooseChars := by
  intro s rest h
  induction h with
  | close rest => exact ⟨[Ascii.doubleQuote], rfl, .close⟩
  | @plain b s rest visible notQuote notBackslash _ ih =>
    obtain ⟨token, rfl, frame⟩ := ih
    exact ⟨b :: token, rfl, fun more => .plain visible notQuote notBackslash (frame more)⟩
  | @letter b c s rest hb _ ih =>
    obtain ⟨token, rfl, frame⟩ := ih
    exact ⟨Ascii.backslash :: b :: token, rfl, fun more => .letter hb (frame more)⟩
  | unit hu _ ih =>
    obtain ⟨token, rfl, frame⟩ := ih
    obtain ⟨digits, rfl, frameU⟩ := Framed.quad _ _ _ hu
    refine ⟨Ascii.backslash :: letterU :: (digits ++ token), by simp, fun more => ?_⟩
    simp only [List.cons_append, List.append_assoc]
    exact .unit (frameU _) (frame more)

theorem Framed.quoted (t : Option String) : Framed (Quoted t) := by
  rintro s rest h
  cases h with
  | strict h =>
    obtain ⟨token, rfl, frame⟩ := Framed.chars _ _ _ h
    exact ⟨Ascii.doubleQuote :: token, rfl, fun more => .strict (frame more)⟩
  | loose h =>
    obtain ⟨token, rfl, frame⟩ := Framed.looseChars _ _ h
    exact ⟨Ascii.doubleQuote :: token, rfl, fun more => .loose (frame more)⟩

/-! ### Values -/

mutual

/-- A value is a token of its own, whatever stands behind it. -/
theorem Value.framed : ∀ {t : Tree} {s rest : Bytes}, Value t s rest →
    ∃ token, s = token ++ rest ∧ ∀ more, Value t (token ++ more) more
  | _, _, _, .null _ => ⟨letterN :: ull, rfl, .null⟩
  | _, _, _, .yes _ => ⟨letterT :: rue, rfl, .yes⟩
  | _, _, _, .no _ => ⟨letterF :: alse, rfl, .no⟩
  | _, _, _, @Value.number token rest h => ⟨token, rfl, fun more => .number more h⟩
  | _, _, _, .text h => by
    obtain ⟨token, rfl, frame⟩ := Framed.quoted _ _ _ h
    exact ⟨token, rfl, fun more => .text (frame more)⟩
  | _, _, _, .list h => by
    obtain ⟨token, rfl, frame⟩ := h.framed
    exact ⟨Ascii.openBracket :: token, rfl, fun more => .list (frame more)⟩
  | _, _, _, .object h => by
    obtain ⟨token, rfl, frame⟩ := h.framed
    exact ⟨Ascii.openBrace :: token, rfl, fun more => .object (frame more)⟩

theorem Element.framed : ∀ {t : Tree} {s rest : Bytes}, Element t s rest →
    ∃ token, s = token ++ rest ∧ ∀ more, Element t (token ++ more) more
  | _, _, _, .mk before h after => by
    obtain ⟨x, rfl, frameX⟩ := Framed.blank _ _ before
    obtain ⟨y, rfl, frameY⟩ := h.framed
    obtain ⟨z, rfl, frameZ⟩ := Framed.blank _ _ after
    refine ⟨x ++ (y ++ z), by simp only [List.append_assoc], fun more => ?_⟩
    simp only [List.append_assoc]
    exact .mk (frameX _) (frameY _) (frameZ _)

theorem Items.framed : ∀ {items : List Tree} {s rest : Bytes}, Items items s rest →
    ∃ token, s = token ++ rest ∧ ∀ more, Items items (token ++ more) more
  | _, _, _, .nil h => by
    obtain ⟨x, rfl, frame⟩ := Framed.blank _ _ h
    refine ⟨x ++ [Ascii.closeBracket], by simp, fun more => ?_⟩
    rw [List.append_assoc]
    exact .nil (frame _)
  | _, _, _, .cons h => by
    obtain ⟨token, e, frame⟩ := h.framed
    exact ⟨token, e, fun more => .cons (frame more)⟩

theorem MoreItems.framed : ∀ {items : List Tree} {s rest : Bytes}, MoreItems items s rest →
    ∃ token, s = token ++ rest ∧ ∀ more, MoreItems items (token ++ more) more
  | _, _, _, .last h => by
    obtain ⟨x, rfl, frame⟩ := h.framed
    refine ⟨x ++ [Ascii.closeBracket], by simp, fun more => ?_⟩
    rw [List.append_assoc]
    exact .last (frame _)
  | _, _, _, .cons h h' => by
    obtain ⟨x, rfl, frame⟩ := h.framed
    obtain ⟨y, rfl, frame'⟩ := h'.framed
    refine ⟨x ++ Ascii.comma :: y, by simp, fun more => ?_⟩
    rw [List.append_assoc, List.cons_append]
    exact .cons (frame _) (frame' more)

theorem Member.framed : ∀ {m : Option String × Tree} {s rest : Bytes}, Member m s rest →
    ∃ token, s = token ++ rest ∧ ∀ more, Member m (token ++ more) more
  | _, _, _, .mk before name colon value => by
    obtain ⟨x, rfl, frameX⟩ := Framed.blank _ _ before
    obtain ⟨y, rfl, frameY⟩ := Framed.quoted _ _ _ name
    obtain ⟨z, rfl, frameZ⟩ := Framed.blank _ _ colon
    obtain ⟨v, rfl, frameV⟩ := value.framed
    refine ⟨x ++ (y ++ (z ++ Ascii.colon :: v)), by simp, fun more => ?_⟩
    simp only [List.append_assoc, List.cons_append]
    exact .mk (frameX _) (frameY _) (frameZ _) (frameV _)

theorem Members.framed : ∀ {members : List (Option String × Tree)} {s rest : Bytes},
    Members members s rest →
      ∃ token, s = token ++ rest ∧ ∀ more, Members members (token ++ more) more
  | _, _, _, .nil h => by
    obtain ⟨x, rfl, frame⟩ := Framed.blank _ _ h
    refine ⟨x ++ [Ascii.closeBrace], by simp, fun more => ?_⟩
    rw [List.append_assoc]
    exact .nil (frame _)
  | _, _, _, .cons h => by
    obtain ⟨token, e, frame⟩ := h.framed
    exact ⟨token, e, fun more => .cons (frame more)⟩

theorem MoreMembers.framed : ∀ {members : List (Option String × Tree)} {s rest : Bytes},
    MoreMembers members s rest →
      ∃ token, s = token ++ rest ∧ ∀ more, MoreMembers members (token ++ more) more
  | _, _, _, .last h => by
    obtain ⟨x, rfl, frame⟩ := h.framed
    refine ⟨x ++ [Ascii.closeBrace], by simp, fun more => ?_⟩
    rw [List.append_assoc]
    exact .last (frame _)
  | _, _, _, .cons h h' => by
    obtain ⟨x, rfl, frame⟩ := h.framed
    obtain ⟨y, rfl, frame'⟩ := h'.framed
    refine ⟨x ++ Ascii.comma :: y, by simp, fun more => ?_⟩
    rw [List.append_assoc, List.cons_append]
    exact .cons (frame _) (frame' more)

end

end TargetQuery.Json.Grammar
