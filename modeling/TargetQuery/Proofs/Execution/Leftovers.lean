import Mathlib.Order.BooleanAlgebra.Set
import TargetQuery.Proofs.Execution.Delivery
import TargetQuery.Proofs.Machine.Standing

/-!
# Response files that are left behind

While a tool runs, the directory for temporary files may hold one file more than before, which has
the arguments of the job in it. What matters about such a directory is the set of the names that
response files in it have: making the file adds a name to the set, and removing it takes the name
away again. A job that was to run in place and could not be started removes nothing.
-/

namespace TargetQuery

namespace FileTree

variable {t t' : FileTree} {here place : Place} {p : Path}

/-- Two names in one directory lead to two places. -/
theorem resolve_join_ne {directory : Path} (absolute : directory.isAbsolute = true)
    {name other : Bytes} (isName : Path.IsName name) (isName' : Path.IsName other)
    (differ : other ≠ name) {place' : Place}
    (h : t.resolve here (directory.join ⟨name⟩) = .ok place)
    (h' : t.resolve here (directory.join ⟨other⟩) = .ok place') : place' ≠ place := by
  obtain ⟨before, stretches⟩ := Path.exists_splitSlash_join directory
  obtain ⟨holder, walked, rfl⟩ :=
    ResponseFile.exists_holder absolute stretches ⟨name⟩ isName h
  obtain ⟨holder', walked', rfl⟩ :=
    ResponseFile.exists_holder absolute stretches ⟨other⟩ isName' h'
  obtain rfl := Except.ok.inj (walked.symm.trans walked')
  intro same
  exact differ (List.cons.inj (List.append_cancel_left same)).1

/-- What stands under a name in a directory stays when the place of another name changes. -/
theorem DiffersAt.node?_join (h : DiffersAt t t' place) {directory : Path}
    (absolute : directory.isAbsolute = true) {name other : Bytes} (isName : Path.IsName name)
    (isName' : Path.IsName other) (differ : other ≠ name)
    (leads : t.resolve here (directory.join ⟨name⟩) = .ok place) :
    t'.node? here (directory.join ⟨other⟩) = t.node? here (directory.join ⟨other⟩) := by
  refine Option.ext fun node => ?_
  rw [node?_eq_some, node?_eq_some]
  constructor
  · rintro ⟨place', resolved, found⟩
    have resolved := resolve_mono h.kept resolved
    have elsewhere := resolve_join_ne absolute isName isName' differ leads resolved
    exact ⟨place', resolved, (h.elsewhere place' elsewhere).symm.trans found⟩
  · rintro ⟨place', resolved, found⟩
    have elsewhere := resolve_join_ne absolute isName isName' differ leads resolved
    exact ⟨place', resolve_mono h.keeps resolved, (h.elsewhere place' elsewhere).trans found⟩

end FileTree

namespace ResponseFile

/-! ### The response files in a directory -/

structure IsFileName (name : Bytes) : Prop where
  begins : Utf8.encode "arguments-" <+: name
  ends : Utf8.encode ".resp" <:+ name
  whole : Ascii.slash ∉ name

/-- The names of the response files in a directory. -/
def standing (t : FileTree) (directory : Path) : Set Bytes :=
  {name | IsFileName name ∧ t.isFile [] (directory.join ⟨name⟩) = true}

theorem IsFileName.isName {name : Bytes} (h : IsFileName name) : Path.IsName name := by
  obtain ⟨rest, rfl⟩ := h.begins
  have long : 2 < (Utf8.encode "arguments-").length := by decide
  refine ⟨fun same => ?_, h.whole, fun same => ?_, fun same => ?_⟩
  · have length := congrArg List.length same
    rw [List.length_append, List.length_nil] at length
    omega
  · have length := congrArg List.length same
    rw [List.length_append, Path.dot, List.length_singleton] at length
    omega
  · have length := congrArg List.length same
    rw [List.length_append, Path.dotDot, List.length_cons, List.length_singleton] at length
    omega

theorem encode_fileName (n : Nat) : Utf8.encode (fileName n) =
    Utf8.encode "arguments-" ++ (Utf8.encodeChars (paddedDigits n) ++ Utf8.encode ".resp") := by
  rw [Utf8.encode, toList_fileName, Utf8.encodeChars_append, Utf8.encodeChars_append]
  rfl

theorem isFileName_fileName (n : Nat) : IsFileName (Utf8.encode (fileName n)) where
  begins := ⟨_, (encode_fileName n).symm⟩
  ends := ⟨Utf8.encode "arguments-" ++ Utf8.encodeChars (paddedDigits n), by
    rw [encode_fileName, List.append_assoc]⟩
  whole := by
    rw [← Path.bytes_ofString]
    exact (isName_fileName n).whole

theorem mem_standing_iff {t : FileTree} {directory : Path} {name : Bytes} :
    name ∈ standing t directory ↔ IsFileName name ∧
      ∃ mode content, t.node? [] (directory.join ⟨name⟩) = some (.file mode content) :=
  and_congr_right fun _ => FileTree.isFile_iff_node?

section

variable {t t' : FileTree} {directory : Path} {name : Bytes} {place : Place}

/-- The place of one file is no matter for the others. -/
theorem mem_standing_of_differsAt (h : FileTree.DiffersAt t t' place)
    (absolute : directory.isAbsolute = true) (isFileName : IsFileName name)
    (leads : t.resolve [] (directory.join ⟨name⟩) = .ok place) {other : Bytes}
    (differ : other ≠ name) : other ∈ standing t' directory ↔ other ∈ standing t directory := by
  rw [mem_standing_iff, mem_standing_iff]
  refine and_congr_right fun isFileName' => ?_
  rw [h.node?_join absolute isFileName.isName isFileName'.isName differ leads]

/-- A file that is put under a free name stands there besides the others. -/
theorem standing_put {mode : Nat} {content : Bytes} (absolute : directory.isAbsolute = true)
    (isFileName : IsFileName name)
    (leads : t.resolve [] (directory.join ⟨name⟩) = .ok place) (nonempty : place ≠ [])
    (free : t.find? place = none) :
    name ∉ standing t directory ∧
      standing (t.put place (.file mode content)) directory
        = insert name (standing t directory) := by
  have differs : FileTree.DiffersAt t (t.put place (.file mode content)) place :=
    .put nonempty (by simp [free]) (by simp)
  constructor
  · intro mem
    obtain ⟨-, mode, content, stands⟩ := mem_standing_iff.mp mem
    obtain ⟨place', leads', found⟩ := FileTree.node?_eq_some.mp stands
    obtain rfl := Except.ok.inj (leads.symm.trans leads')
    rw [free] at found
    cases found
  · ext other
    rw [Set.mem_insert_iff]
    by_cases same : other = name
    · subst same
      refine iff_of_true (mem_standing_iff.mpr ⟨isFileName, mode, content, ?_⟩) (.inl rfl)
      exact FileTree.node?_eq_some.mpr
        ⟨place, FileTree.resolve_mono differs.keeps leads, t.find?_put_self _ nonempty⟩
    · rw [mem_standing_of_differsAt differs absolute isFileName leads same]
      simp [same]

/-- Erasing a file that stands there takes its name away, and no other. -/
theorem standing_erase (absolute : directory.isAbsolute = true)
    (leads : t.resolve [] (directory.join ⟨name⟩) = .ok place)
    (mem : name ∈ standing t directory) :
    standing (t.erase place) directory = standing t directory \ {name} := by
  obtain ⟨isFileName, mode, content, stands⟩ := mem_standing_iff.mp mem
  obtain ⟨place', leads', found⟩ := FileTree.node?_eq_some.mp stands
  obtain rfl := Except.ok.inj (leads.symm.trans leads')
  have nonempty : place ≠ [] := by
    rintro rfl
    cases found
  have differs : FileTree.DiffersAt t (t.erase place) place := .erase nonempty (by simp [found])
  ext other
  rw [Set.mem_sdiff, Set.mem_singleton_iff]
  by_cases same : other = name
  · subst same
    refine iff_of_false (fun there => ?_) (fun there => there.2 rfl)
    obtain ⟨-, mode, content, stands⟩ := mem_standing_iff.mp there
    obtain ⟨place', leads', found⟩ := FileTree.node?_eq_some.mp stands
    obtain rfl := Except.ok.inj (leads.symm.trans (FileTree.resolve_mono differs.kept leads'))
    rw [FileTree.find?_erase t place place nonempty, if_pos rfl] at found
    cases found
  · rw [mem_standing_of_differsAt differs absolute isFileName leads same]
    simp [same]

end

/-! ### Making and removing the file -/

variable {arguments : List Bytes} {directory : Path} {w w' : World}

/-- The file that is written is one that was not there before. -/
theorem standing_of_write {file : Path} (h : write arguments directory w = (.ok file, w')) :
    ∃ name, file = (w.directory.join directory).join ⟨name⟩ ∧
      name ∉ standing w.files (w.directory.join directory) ∧
      standing w'.files (w.directory.join directory)
        = insert name (standing w.files (w.directory.join directory)) := by
  have absolute := Path.isAbsolute_join w.isAbsolute_directory directory
  obtain ⟨place, path, receives, free, made⟩ := exists_place_of_write h
  obtain ⟨n, numbered⟩ : ∃ n, freshPath w (w.directory.join directory)
      = (w.directory.join directory).join ⟨Utf8.encode (fileName n)⟩ := ⟨_, rfl⟩
  have there := path.trans numbered
  have leads := receives.resolve
  rw [there, FileTree.resolve_of_isAbsolute (Path.isAbsolute_join absolute _) w.here []] at leads
  rw [made]
  exact ⟨_, there, standing_put absolute (isFileName_fileName n) leads receives.nonempty free⟩

/-- A file that is there is removed, and no other one. -/
theorem standing_of_discard (absolute : directory.isAbsolute = true) {name : Bytes}
    (mem : name ∈ standing w.files directory) :
    standing (discard (directory.join ⟨name⟩) w).2.files directory
      = standing w.files directory \ {name} := by
  obtain ⟨-, mode, content, stands⟩ := mem_standing_iff.mp mem
  obtain ⟨place, leads, -⟩ := FileTree.node?_eq_some.mp stands
  have leads' := leads
  rw [FileTree.resolve_of_isAbsolute (Path.isAbsolute_join absolute _) [] w.here] at leads'
  have removed : (discard (directory.join ⟨name⟩) w).2
      = { w with files := w.files.erase place } := by
    simp only [discard, modify, modifyGet, MonadStateOf.modifyGet, StateT.modifyGet, leads']
    rfl
  rw [removed]
  exact standing_erase absolute leads mem

end ResponseFile

/-- A launcher that makes no response file in the directory, and removes none. -/
def Launcher.Tidy (launch : Launcher) (directory : Path) : Prop :=
  ∀ c w, ResponseFile.standing (launch c w).2.files directory
    = ResponseFile.standing w.files directory

namespace Executor

open ResponseFile

variable {e : Executor} {j : Job} {p : Prepared} {directory : Path} {w w' w'' : World}
variable {result : Except ExecutionError Bytes}

/-- The program could not be replaced. -/
def StaysInPlace (result : Except ExecutionError Bytes) : Prop :=
  ∃ program cause, result = .error (.inPlace program cause)

theorem not_staysInPlace_outcome (c : Command) (completed : Completed) :
    ¬ StaysInPlace (outcome c completed) := by
  rintro ⟨program, cause, same⟩
  rw [outcome] at same
  split at same <;> cases same

theorem run_conclude_inPlace (inPlace : j.inPlace = true) (p : Prepared)
    (ended : Except SystemFailure Completed) (w : World) :
    (conclude j p ended).run w = match ended with
      | .ok completed => (.error completed, w)
      | .error failure => (.ok (.error (.inPlace p.command.program failure)), w) := by
  rw [conclude.eq_def, if_pos inPlace]
  cases ended <;> rfl

theorem run_conclude (notInPlace : ¬ j.inPlace = true) (p : Prepared)
    (ended : Except SystemFailure Completed) (w : World) :
    (conclude j p ended).run w =
      (.ok (match ended with
        | .error failure => .error (.spawn p.command.program failure)
        | .ok completed => outcome p.command completed),
      p.spilled?.elim w fun file => (discard file w).2) := by
  obtain ⟨command, spilled?⟩ := p
  rw [conclude.eq_def, if_neg notInPlace]
  cases spilled? <;> cases ended <;> rfl

/-- A job that cannot run in place removes nothing. Any other end of a job removes the file that was
made for it. -/
theorem conclude_eq_ok {ended : Except SystemFailure Completed}
    (h : (conclude j p ended).run w = (.ok result, w')) :
    StaysInPlace result ∧ w' = w ∨
      ¬ StaysInPlace result ∧ w' = p.spilled?.elim w fun file => (discard file w).2 := by
  by_cases inPlace : j.inPlace = true
  · rw [run_conclude_inPlace inPlace] at h
    cases ended with
    | ok completed => cases (Prod.mk.inj h).1
    | error failure =>
      obtain ⟨same, rfl⟩ := Prod.mk.inj h
      exact .inl ⟨⟨_, _, (Except.ok.inj same).symm⟩, rfl⟩
  · rw [run_conclude inPlace] at h
    obtain ⟨same, rfl⟩ := Prod.mk.inj h
    refine .inr ⟨?_, rfl⟩
    obtain rfl := Except.ok.inj same
    cases ended with
    | error failure =>
      rintro ⟨program, cause, same⟩
      cases same
    | ok completed => exact not_staysInPlace_outcome p.command completed

/-- No file was made: then none is there that was not there before. -/
theorem standing_of_direct (launched : e.launched j p w = (.ok result, w'))
    (unspilled : p.spilled? = none) (tidy : e.launch.Tidy directory) :
    standing w'.files directory = standing w.files directory := by
  obtain ⟨-, rfl⟩ | ⟨-, rfl⟩ := conclude_eq_ok launched
  · exact tidy _ w
  · rw [unspilled]
    exact tidy _ w

/-- A file was made: it is removed again, unless the job was to run in place. -/
theorem standing_of_spilled {name : Bytes} (absolute : directory.isAbsolute = true)
    (spilled : p.spilled? = some (directory.join ⟨name⟩)) (tidy : e.launch.Tidy directory)
    (launched : e.launched j p w = (.ok result, w'))
    (there : name ∈ standing w.files directory) :
    StaysInPlace result ∧ standing w'.files directory = standing w.files directory ∨
      ¬ StaysInPlace result ∧
        standing w'.files directory = standing w.files directory \ {name} := by
  have kept := tidy { p.command with replaces := j.inPlace } w
  obtain ⟨stays, rfl⟩ | ⟨ended, rfl⟩ := conclude_eq_ok launched
  · exact .inl ⟨stays, kept⟩
  · rw [spilled]
    rw [← kept] at there ⊢
    exact .inr ⟨ended, standing_of_discard absolute there⟩

/-- The job leaves the file with its arguments behind: it was to run in place, and could not. -/
def LeavesFile (e : Executor) (j : Job) (result : Except ExecutionError Bytes) : Prop :=
  e.spills j = true ∧ StaysInPlace result

/-- A job that leaves its file leaves one more, and any other job leaves what stood there. -/
theorem standing_of_execute (here : directory = w.directory.join (e.spillDirectory w))
    (tidy : e.launch.Tidy directory) (returned : (e.execute j).run w = (.ok result, w')) :
    ¬ e.LeavesFile j result ∧ standing w'.files directory = standing w.files directory ∨
      e.LeavesFile j result ∧ ∃ name ∉ standing w.files directory,
        standing w'.files directory = insert name (standing w.files directory) := by
  have refused : ∀ error, (e.execute j).run w = (.ok (.error error), w) →
      (¬ StaysInPlace (.error error)) →
      ¬ e.LeavesFile j result ∧ standing w'.files directory = standing w.files directory := by
    intro error ran other
    obtain ⟨same, rfl⟩ := Prod.mk.inj (ran.symm.trans returned)
    obtain rfl := Except.ok.inj same
    exact ⟨fun leaves => other leaves.2, rfl⟩
  cases tool : j.tool.path? with
  | none =>
    refine .inl (refused _ (e.execute_of_error j w (e.prepare_of_stream j w tool)) ?_)
    rintro ⟨program, cause, same⟩
    cases same
  | some program =>
    by_cases spills : e.spills j = true
    · cases written : ResponseFile.write j.argv (e.spillDirectory w) w with
      | mk made w₁ =>
        cases made with
        | error failure =>
          obtain rfl := ResponseFile.write_eq_error written
          refine .inl (refused _
            (e.execute_of_error j w₁ (e.prepare_of_refused j w₁ tool spills written)) ?_)
          rintro ⟨program, cause, same⟩
          cases same
        | ok file =>
          obtain ⟨name, rfl, fresh, added⟩ := standing_of_write written
          obtain ⟨notices, prepared⟩ := e.prepare_of_spilled j w tool spills written
          rw [← here] at fresh added prepared
          rw [e.run_execute_of_ok j w prepared] at returned
          have there : name ∈ standing w₁.files directory := by simp [added]
          have absolute : directory.isAbsolute = true :=
            here ▸ Path.isAbsolute_join w.isAbsolute_directory _
          obtain ⟨stays, after⟩ | ⟨ended, after⟩ :=
            standing_of_spilled absolute rfl tidy returned there
          · refine .inr ⟨⟨spills, stays⟩, name, fresh, after.trans added⟩
          · refine .inl ⟨fun leaves => ended leaves.2, after.trans ?_⟩
            rw [announced, added, Set.insert_sdiff_self_of_notMem fresh]
    · have prepared := e.prepare_of_direct j w tool (by simpa using spills)
      rw [e.run_execute_of_ok j w prepared] at returned
      have after := standing_of_direct returned rfl tidy
      exact .inl ⟨fun leaves => spills leaves.1, after⟩

/-- The response files in the directory for temporary files are the same as before, unless a job was
to run in place with its arguments in a file, and could not be started: then that file is left
behind. -/
theorem response_files_after (here : directory = w.directory.join (e.spillDirectory w))
    (tidy : e.launch.Tidy directory) (returned : (e.execute j).run w = (.ok result, w')) :
    (standing w'.files directory = standing w.files directory ↔ ¬ e.LeavesFile j result) ∧
      (e.LeavesFile j result → ∃ name ∉ standing w.files directory,
        standing w'.files directory = insert name (standing w.files directory)) := by
  obtain ⟨clean, same⟩ | ⟨leaves, name, fresh, added⟩ := standing_of_execute here tidy returned
  · exact ⟨iff_of_true same clean, fun leaves => absurd leaves clean⟩
  · refine ⟨iff_of_false (fun same => ?_) (fun clean => clean leaves),
      fun _ => ⟨name, fresh, added⟩⟩
    exact fresh (same ▸ added ▸ Set.mem_insert name _)

theorem tidy_pure (ended : Except SystemFailure Completed) (directory : Path) :
    Launcher.Tidy (fun _ => pure ended) directory :=
  fun _ _ => rfl

theorem exists_returned {ran : Except Completed (Except ExecutionError Bytes) × World}
    {output : Bytes} (h : ran.1.toOption.bind Except.toOption = some output) :
    ∃ w', ran = (.ok (.ok output), w') := by
  obtain ⟨ended, w'⟩ := ran
  cases ended with
  | error completed => cases h
  | ok result =>
    cases result with
    | error error => cases h
    | ok output' =>
      obtain rfl := Option.some.inj h
      exact ⟨w', rfl⟩

/-- A job with its arguments in a file, in a world with a directory for temporary files. -/
theorem response_files_after_success :
    let e : Executor := { launch := fun _ => pure (.ok ⟨some 0, [], []⟩), limit := 0 }
    let j : Job :=
      { kind := .printTargetInfo, tool := .absolute ⟨[0x2F, 0x74]⟩
        arguments := [.flag "v"], responseFiles := true }
    let w : World := { files := ⟨[([Utf8.encode "tmp"], .directory)]⟩ }
    let directory := w.directory.join (e.spillDirectory w)
    e.spills j = true ∧ ∃ w', (e.execute j).run w = (.ok (.ok []), w') ∧
      standing w'.files directory = standing w.files directory := by
  intro e j w directory
  have output : ((e.execute j).run w).1.toOption.bind Except.toOption = some [] := by
    decide +kernel
  obtain ⟨w', returned⟩ := exists_returned output
  have after := response_files_after rfl (tidy_pure _ directory) returned
  refine ⟨by decide +kernel, w', returned, after.1.mpr ?_⟩
  rintro ⟨-, program, cause, same⟩
  cases same

/-- A job that was to run in place, with its arguments in a file: there is no such tool, and the
file is left behind. -/
theorem file_left_behind :
    let e : Executor := { launch := fun _ => pure (.error .notFound), limit := 1 }
    let j : Job :=
      { kind := .printTargetInfo, tool := .absolute ⟨[0x2F, 0x74]⟩
        arguments := [.flag "abc"], inPlace := true, responseFiles := true }
    let w : World := { files := ⟨[([Utf8.encode "tmp"], .directory)]⟩ }
    let directory := w.directory.join (e.spillDirectory w)
    e.launch.Tidy directory ∧ ∃ result w', (e.execute j).run w = (.ok result, w') ∧
      standing w'.files directory ≠ standing w.files directory := by
  intro e j w directory
  let name := Utf8.encode (fileName 0)
  have returned : ((e.execute j).run w).1.toOption.isSome = true := by decide +kernel
  have before : w.files.isFile [] (directory.join ⟨name⟩) = false := by decide +kernel
  have after : ((e.execute j).run w).2.files.isFile [] (directory.join ⟨name⟩) = true := by
    decide +kernel
  refine ⟨tidy_pure _ directory, ?_⟩
  generalize (e.execute j).run w = ran at returned after
  obtain ⟨ended, w'⟩ := ran
  cases ended with
  | error completed => cases returned
  | ok result =>
    refine ⟨result, w', rfl, fun same => ?_⟩
    have there : name ∈ standing w'.files directory := ⟨isFileName_fileName 0, after⟩
    rw [same] at there
    exact absurd (before.symm.trans there.2) (by decide)

end Executor

end TargetQuery
