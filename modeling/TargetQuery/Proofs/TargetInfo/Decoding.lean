import TargetQuery.Proofs.TargetInfo.RoundTrip
import TargetQuery.Proofs.TargetInfo.Strict

/-!
# Decoding

Decoding a text is the check of the schema on the value that the text writes down, and a text that
is decoded is well-formed. Only the values of members that nobody asks for are held to less.
-/

namespace TargetQuery.TargetInfo

open Json Grammar

/-- A well-formed text is decoded to what its tree says, and is of the wrong shape if the tree says
nothing. -/
theorem decode_document {t : Tree} {s : Bytes} (written : Document t s) (legible : t.Legible)
    (objects : ObjectsOnly t) :
    match ofTree? t with
    | some i => decode s = .ok i
    | none => ∃ p, decode s = .error (.wrongShape p) := by
  cases meant : ofTree? t with
  | some i => exact decode_eq_ok written legible objects meant
  | none => exact decode_eq_wrongShape written legible objects meant

def letters : TargetInfo := { target := ⟨⟨"a"⟩, ⟨"b"⟩, ⟨"c"⟩, true⟩ }

/-- The target is read, and an object without one is refused. -/
theorem decode_document_letters :
    decode (Utf8.encode letters.encode) = .ok letters ∧
      ∃ p, decode [Ascii.openBrace, Ascii.closeBrace] = .error (.wrongShape p) := by
  constructor
  · exact decode_document letters.toJson.document_toPretty letters.toJson.legible_toTree
      letters.objectsOnly_toJson
  · have written : Document (.object []) [Ascii.openBrace, Ascii.closeBrace] :=
      .mk (.nil _) (.object (.nil (.nil _))) (.nil _)
    have legible : Tree.Legible (.object []) :=
      .object (List.forall_mem_nil _) (List.forall_mem_nil _)
    have objects : ObjectsOnly (.object []) := by
      simp [ObjectsOnly, Tree.NotList, MemberList.under]
    exact decode_document written legible objects

/-- A text that is decoded is well-formed, and its tree says what is read. Strings that are not text
stand only in values that are skipped. -/
theorem document_of_decode {s : Bytes} {i : TargetInfo} (h : decode s = .ok i) :
    ∃ t, Document t s ∧ Strict t ∧ ofTree? t = some i := by
  obtain ⟨c, read, after⟩ := run_eq_ok (run_of_decode h)
  obtain ⟨t, a, before, value, meant⟩ := sound_read maxDepth 0 s i c read
  exact ⟨t, .mk before value after, strict_of_ofTree? meant, meant⟩

/-- A broken string under an empty name, behind a target that is written as a list. -/
def brokenString : Bytes :=
  [0x7B, 0x22, 0x74, 0x61, 0x72, 0x67, 0x65, 0x74, 0x22, 0x3A, 0x5B, 0x22, 0x22, 0x2C, 0x22,
    0x61, 0x22, 0x2C, 0x22, 0x62, 0x22, 0x2C, 0x74, 0x72, 0x75, 0x65, 0x5D, 0x2C, 0x22, 0x22,
    0x3A, 0x22, 0xFF, 0x5C, 0x75, 0x64, 0x38, 0x30, 0x30, 0x22, 0x7D]

/-- A broken string in a value that is skipped does no harm. -/
theorem document_of_decode_brokenString :
    ∃ t, Document t brokenString ∧ Strict t ∧
      ofTree? t = some { target := ⟨⟨""⟩, ⟨"a"⟩, ⟨"b"⟩, true⟩ } :=
  document_of_decode rfl

end TargetQuery.TargetInfo
