import Mathlib.Data.List.Nodup
import Mathlib.Data.List.Perm.Subperm
import TargetQuery.Proofs.Machine.Directories
import TargetQuery.ResponseFile

/-!
# Fresh files

Response files have numbered names, and a tree has only so many entries. So one of the first few
names is always free, and the file that is written is a new one: the first of them that is free. It
can be made wherever the directory is there and the path is not too long.
-/

namespace TargetQuery

/-! ### Numbered names -/

namespace Utf8

theorem encodeChars_ascii {cs : List Char} (ascii : ∀ c ∈ cs, c.toNat < 0x80) :
    encodeChars cs = cs.map fun c => UInt8.ofNat c.toNat := by
  induction cs with
  | nil => rfl
  | cons c cs ih =>
    rw [List.forall_mem_cons] at ascii
    rw [encodeChars_cons, encodeChar_of_lt_80 ascii.1, ih ascii.2]
    rfl

end Utf8

namespace ResponseFile

theorem toList_pushn (s : String) (c : Char) (n : Nat) :
    (s.pushn c n).toList = s.toList ++ List.replicate n c := by
  induction n with
  | zero => simp [String.pushn, Nat.repeat]
  | succ n ih =>
    rw [String.pushn] at ih
    rw [String.pushn, Nat.repeat, String.toList_push, ih, List.append_assoc,
      List.replicate_succ']

/-- The digits between the two fixed parts of a name. -/
def paddedDigits (n : Nat) : List Char :=
  List.replicate (6 - (Nat.toDigits 10 n).length) '0' ++ Nat.toDigits 10 n

theorem toList_fileName (n : Nat) :
    (fileName n).toList = "arguments-".toList ++ (paddedDigits n ++ ".resp".toList) := by
  have length : n.repr.length = (Nat.toDigits 10 n).length := by
    rw [← Nat.toString_eq_repr, Nat.toString_eq_ofList_toDigits, String.length_ofList]
  simp [fileName, paddedDigits, toList_pushn, length]

/-- Zeros in front of a number do not change it. -/
theorem ofDigitChars_paddedDigits (n : Nat) : Nat.ofDigitChars 10 (paddedDigits n) 0 = n := by
  have zeros : ∀ k,
      (List.replicate k '0').foldl (fun soFar c => 10 * soFar + (c.toNat - 48)) 0 = 0 := by
    intro k
    induction k with
    | zero => rfl
    | succ k ih => exact ih
  rw [paddedDigits, Nat.ofDigitChars, List.foldl_append]
  exact (congrArg _ (zeros _)).trans Nat.ofDigitChars_ten_toDigits

theorem fileName_injective : Function.Injective fileName := by
  intro m n h
  have same := congrArg String.toList h
  rw [toList_fileName, toList_fileName] at same
  have digits := List.append_cancel_right (List.append_cancel_left same)
  rw [← ofDigitChars_paddedDigits m, digits, ofDigitChars_paddedDigits]

theorem mem_paddedDigits {n : Nat} {c : Char} (h : c ∈ paddedDigits n) : c.isDigit = true := by
  rw [paddedDigits, List.mem_append, List.mem_replicate] at h
  obtain ⟨-, rfl⟩ | h := h
  · rfl
  · exact Nat.isDigit_of_mem_toDigits (by decide) (by decide) h

/-- The names of response files are in ASCII, without slashes and without zero bytes. -/
theorem mem_fileName {n : Nat} {c : Char} (h : c ∈ (fileName n).toList) :
    0 < c.toNat ∧ c.toNat < 0x80 ∧ c.toNat ≠ Ascii.slash.toNat := by
  rw [toList_fileName, List.mem_append, List.mem_append] at h
  have known : ∀ {l : List Char},
      l.all (fun c => 0 < c.toNat ∧ c.toNat < 0x80 ∧ c.toNat ≠ Ascii.slash.toNat) = true → c ∈ l →
      0 < c.toNat ∧ c.toNat < 0x80 ∧ c.toNat ≠ Ascii.slash.toNat :=
    fun all mem => of_decide_eq_true (List.all_eq_true.mp all c mem)
  obtain fixed | digits | fixed := h
  · exact known (by decide) fixed
  · have digit := mem_paddedDigits digits
    simp only [Char.isDigit, Bool.and_eq_true, decide_eq_true_eq, ge_iff_le,
      UInt32.le_iff_toNat_le] at digit
    change 48 ≤ c.toNat ∧ c.toNat ≤ 57 at digit
    refine ⟨by omega, by omega, ?_⟩
    change c.toNat ≠ 47
    omega
  · exact known (by decide) fixed

theorem encode_fileName_eq_map (n : Nat) :
    Utf8.encode (fileName n) = (fileName n).toList.map fun c => UInt8.ofNat c.toNat := by
  rw [Utf8.encode, Utf8.encodeChars_ascii fun c hc => (mem_fileName hc).2.1]

/-- A byte of the name of a response file is that of a character in it. -/
theorem exists_mem_fileName {n : Nat} {b : UInt8} (h : b ∈ Utf8.encode (fileName n)) :
    ∃ c ∈ (fileName n).toList, b.toNat = c.toNat := by
  rw [encode_fileName_eq_map, List.mem_map] at h
  obtain ⟨c, hc, rfl⟩ := h
  have ascii := (mem_fileName hc).2.1
  exact ⟨c, hc, Utf8.toNat_byte (by omega)⟩

theorem nul_not_mem_fileName (n : Nat) : Ascii.nul ∉ (Path.ofString (fileName n)).bytes := by
  rw [Path.bytes_ofString]
  intro h
  obtain ⟨c, hc, same⟩ := exists_mem_fileName h
  have positive := (mem_fileName hc).1
  rw [← same] at positive
  exact absurd positive (by decide)

/-- The name of a response file can be the name of a file anywhere. -/
theorem isName_fileName (n : Nat) : Path.IsName (Path.ofString (fileName n)).bytes := by
  rw [Path.bytes_ofString]
  have first : (Utf8.encode (fileName n)).head? = some 0x61 := by
    have fixed : "arguments-".toList.head? = some 'a' := by decide
    rw [encode_fileName_eq_map, List.head?_map, toList_fileName, List.head?_append, fixed,
      Option.some_or, Option.map_some]
    rfl
  have whole : Ascii.slash ∉ Utf8.encode (fileName n) := by
    intro h
    obtain ⟨c, hc, same⟩ := exists_mem_fileName h
    exact (mem_fileName hc).2.2 same.symm
  constructor
  · intro h
    simp [h] at first
  · exact whole
  · intro h
    rw [h] at first
    exact absurd first (by decide)
  · intro h
    rw [h] at first
    exact absurd first (by decide)

/-! ### A free name -/

/-- A name behind a path that is absolute, if it leads somewhere, leads to that name in a directory
that depends on the path only. -/
theorem exists_holder {t : FileTree} {here : Place} {directory : Path}
    (absolute : directory.isAbsolute = true) {before : List Bytes}
    (stretches : ∀ q : Path, Ascii.slash ∉ q.bytes →
      Path.splitSlash (directory.join q).bytes = before ++ [q.bytes])
    (q : Path) (isName : Path.IsName q.bytes) {place : Place}
    (h : t.resolve here (directory.join q) = .ok place) :
    ∃ holder, t.walk [] before = .ok holder ∧ place = holder ++ [q.bytes] := by
  rw [FileTree.resolve, FileTree.follow_eq_ok, Path.isAbsolute_join absolute, if_pos rfl,
    stretches q isName.whole, FileTree.walk_append_eq_ok] at h
  obtain ⟨-, holder, walked, last⟩ := h
  rw [FileTree.walk_name_eq_ok isName] at last
  exact ⟨holder, walked, last.2.2.symm⟩

theorem mem_entries_of_find? {t : FileTree} {place : Place} {node : Node} (nonempty : place ≠ [])
    (h : t.find? place = some node) : place ∈ t.entries.map (·.1) := by
  rw [FileTree.find?, if_neg nonempty] at h
  by_contra absent
  have none : t.entries.lookup place = none := by
    rw [List.lookup_eq_none_iff]
    intro e he
    rw [bne_iff_ne]
    rintro rfl
    exact absent (List.mem_map_of_mem he)
  rw [none] at h
  cases h

/-- Not all names that are tried are taken: there is one more of them than the tree has entries. -/
theorem exists_free (t : FileTree) (here : Place) {directory : Path}
    (absolute : directory.isAbsolute = true) :
    ∃ n < t.entries.length + 1,
      t.exists? here (directory.join (Path.ofString (fileName n))) = false := by
  by_contra taken
  simp only [not_exists, not_and, Bool.not_eq_false] at taken
  obtain ⟨before, stretches⟩ := Path.exists_splitSlash_join directory
  have located : ∀ n < t.entries.length + 1, ∃ holder, t.walk [] before = .ok holder ∧
      holder ++ [(Path.ofString (fileName n)).bytes] ∈ t.entries.map (·.1) := by
    intro n hn
    have there := taken n hn
    rw [FileTree.exists?] at there
    split at there
    · next found located =>
      obtain ⟨place, node⟩ := found
      obtain ⟨resolved, found⟩ := FileTree.locate_eq_ok.mp located
      obtain ⟨holder, walked, rfl⟩ :=
        exists_holder absolute stretches (Path.ofString (fileName n)) (isName_fileName n) resolved
      exact ⟨holder, walked, mem_entries_of_find? (by simp) found⟩
    · cases there
  obtain ⟨holder, walked, -⟩ := located 0 (Nat.succ_pos _)
  let places := (List.range (t.entries.length + 1)).map fun n =>
    holder ++ [(Path.ofString (fileName n)).bytes]
  have distinct : places.Nodup := by
    refine List.Nodup.map (fun m n same => ?_) List.nodup_range
    have names := List.append_cancel_left (same : holder ++ _ = holder ++ _)
    rw [List.cons.injEq, Path.bytes_ofString, Path.bytes_ofString] at names
    exact fileName_injective (Utf8.encode_injective names.1)
  have subset : places ⊆ t.entries.map (·.1) := by
    intro place hplace
    obtain ⟨n, hn, rfl⟩ := List.mem_map.mp hplace
    obtain ⟨holder', walked', mem⟩ := located n (List.mem_range.mp hn)
    rw [walked] at walked'
    obtain rfl := Except.ok.inj walked'
    exact mem
  have crowded := (distinct.subperm subset).length_le
  rw [List.length_map, List.length_map, List.length_range] at crowded
  omega

/-- The first of the numbered names in a directory at which nothing stands. -/
structure FirstFree (w : World) (directory : Path) (n : Nat) : Prop where
  free : w.files.exists? w.here (directory.join (Path.ofString (fileName n))) = false
  taken : ∀ m < n, w.files.exists? w.here (directory.join (Path.ofString (fileName m))) = true

theorem FirstFree.eq {w : World} {directory : Path} {m n : Nat} (first : FirstFree w directory m)
    (first' : FirstFree w directory n) : m = n := by
  have least : ∀ {m n}, FirstFree w directory m → FirstFree w directory n → ¬ m < n := by
    intro m n first first' less
    have taken := first'.taken m less
    rw [first.free] at taken
    cases taken
  have le := Nat.le_of_not_lt (least first' first)
  have ge := Nat.le_of_not_lt (least first first')
  omega

/-- A response file is about to be written under the first name that is free. -/
theorem exists_firstFree (w : World) {directory : Path} (absolute : directory.isAbsolute = true) :
    ∃ n, FirstFree w directory n ∧
      freshPath w directory = directory.join (Path.ofString (fileName n)) := by
  obtain ⟨n, hn, free⟩ := exists_free w.files w.here absolute
  cases found : (List.range (w.files.entries.length + 1)).find? fun n =>
      !w.files.exists? w.here (directory.join (Path.ofString (fileName n))) with
  | none =>
    have taken := List.find?_eq_none.mp found n (List.mem_range.mpr hn)
    simp [free] at taken
  | some m =>
    obtain ⟨free, -, taken⟩ := List.find?_range_eq_some.mp found
    refine ⟨m, ⟨by simpa using free, by simpa using taken⟩, ?_⟩
    simp only [freshPath, found, Option.getD_some]

/-- Nothing stands where a response file is about to be written. -/
theorem exists?_freshPath (w : World) {directory : Path} (absolute : directory.isAbsolute = true) :
    w.files.exists? w.here (freshPath w directory) = false := by
  obtain ⟨n, first, path⟩ := exists_firstFree w absolute
  rw [path]
  exact first.free

/-- Response files can be made in a directory that is there, as long as neither the first free name
nor its path is too long. -/
structure Room (w : World) (directory : Path) : Prop where
  there : w.files.isDirectory w.here directory = true
  short : ∀ n, FirstFree w directory n →
    (Path.ofString (fileName n)).bytes.length ≤ FileTree.longestName ∧
      (directory.join (Path.ofString (fileName n))).bytes.length ≤ FileTree.longestPath

theorem room_iff (w : World) {directory : Path} (absolute : directory.isAbsolute = true) :
    Room w directory ↔ ∃ place, w.files.Receives w.here (freshPath w directory) place := by
  obtain ⟨n, first, path⟩ := exists_firstFree w absolute
  rw [path, FileTree.exists_receives_join_iff absolute (isName_fileName n) (nul_not_mem_fileName n)]
  constructor
  · intro room
    exact ⟨room.there, room.short n first⟩
  · rintro ⟨there, short⟩
    refine ⟨there, fun m first' => ?_⟩
    obtain rfl := first.eq first'
    exact short

theorem isAbsolute_freshPath (w : World) {directory : Path}
    (absolute : directory.isAbsolute = true) : (freshPath w directory).isAbsolute = true :=
  Path.isAbsolute_join absolute _

end ResponseFile

theorem World.isAbsolute_directory (w : World) : w.directory.isAbsolute = true := by
  rw [World.directory]
  cases w.here <;> rfl

end TargetQuery
