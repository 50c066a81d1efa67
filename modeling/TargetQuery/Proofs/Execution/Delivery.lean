import TargetQuery.Execution
import TargetQuery.Proofs.Execution.FreshFile
import TargetQuery.Proofs.Execution.ResponseFile

/-!
# What a tool receives

A tool is started with the arguments of its job, or with the name of a new file that holds them. A
tool that reads such a file sees the arguments of the job either way. The file is made wherever
there is room for it, and where there is none the tool is not started and no trace is left.
-/

namespace TargetQuery

/-! ### Absolute paths -/

namespace FileTree

variable {t : FileTree} {p : Path}

theorem resolve_of_isAbsolute (absolute : p.isAbsolute = true) (here there : Place) :
    t.resolve here p = t.resolve there p := by
  simp only [resolve, follow, absolute, if_true]

/-- A file with an absolute path is the same from everywhere. -/
theorem read_of_isAbsolute (absolute : p.isAbsolute = true) (here there : Place) :
    t.read here p = t.read there p := by
  simp only [read, locate, resolve_of_isAbsolute absolute here there]

end FileTree

/-! ### The file that is written -/

/-- The world has one file more than before: a new one that holds the arguments, under the first
name in the directory that was free. It can be read from wherever a tool may run. -/
structure Spilled (w : World) (directory : Path) (arguments : List Bytes) (file : Path)
    (w' : World) : Prop where
  absolute : file.isAbsolute = true
  named : ∃ n, ResponseFile.FirstFree w directory n ∧
    file = directory.join (Path.ofString (ResponseFile.fileName n))
  fresh : w.files.exists? w.here file = false
  added : ∃ place, w.files.find? place = none ∧
    w'.files = w.files.put place (.file 0o600 (ResponseFile.contents arguments))
  others : w' = { w with files := w'.files, notices := w'.notices }
  readable : ∀ here, w'.files.read here file = .ok (ResponseFile.contents arguments)

theorem Spilled.announced {w w' : World} {directory file : Path} {arguments : List Bytes}
    (h : Spilled w directory arguments file w') (notices : List Notice) :
    Spilled w directory arguments file { w' with notices } where
  absolute := h.absolute
  named := h.named
  fresh := h.fresh
  added := h.added
  others := by
    rw [h.others]
  readable := h.readable

namespace ResponseFile

variable {arguments : List Bytes} {directory : Path} {w w' : World}

theorem write_eq (arguments : List Bytes) (directory : Path) (w : World) :
    write arguments directory w =
      match w.files.write w.here (freshPath w (w.directory.join directory)) 0o600
        (contents arguments) with
      | .ok files => (.ok (freshPath w (w.directory.join directory)), { w with files })
      | .error failure => (.error failure, w) := by
  cases written : w.files.write w.here (freshPath w (w.directory.join directory)) 0o600
    (contents arguments) with
  | ok files =>
    simp only [write, bind, StateT.bind, get, getThe, MonadStateOf.get, StateT.get, pure, written]
    rfl
  | error failure =>
    simp only [write, bind, StateT.bind, get, getThe, MonadStateOf.get, StateT.get, pure, written]
    rfl

/-- A failure leaves nothing behind. -/
theorem write_eq_error {failure : SystemFailure}
    (h : write arguments directory w = (.error failure, w')) : w' = w := by
  rw [write_eq] at h
  cases written : w.files.write w.here (freshPath w (w.directory.join directory)) 0o600
    (contents arguments) with
  | ok files =>
    simp only [written] at h
    cases (Prod.mk.inj h).1
  | error failure =>
    simp only [written] at h
    exact (Prod.mk.inj h).2.symm

/-- A file that is written is put where its path leads, and nothing stood there. -/
theorem exists_place_of_write {file : Path} (h : write arguments directory w = (.ok file, w')) :
    ∃ place, file = freshPath w (w.directory.join directory) ∧
      w.files.Receives w.here file place ∧ w.files.find? place = none ∧
      w' = { w with files := w.files.put place (.file 0o600 (contents arguments)) } := by
  have fresh := exists?_freshPath w (Path.isAbsolute_join w.isAbsolute_directory directory)
  rw [write_eq] at h
  generalize freshPath w (w.directory.join directory) = path at h fresh
  cases written : w.files.write w.here path 0o600 (contents arguments) with
  | error failure =>
    simp only [written] at h
    cases (Prod.mk.inj h).1
  | ok files =>
    simp only [written] at h
    obtain ⟨result, rfl⟩ := Prod.mk.inj h
    obtain rfl := Except.ok.inj result
    obtain ⟨place, receives⟩ := FileTree.exists_receives_of_write written
    have free := (FileTree.exists?_eq_false receives).mp fresh
    have noDevice : ∀ full, w.files.find? place ≠ some (.device full) := by simp [free]
    obtain ⟨mode, rfl, ⟨-, rfl⟩ | ⟨old, found, -⟩⟩ :=
      FileTree.write_eq_ok receives noDevice written
    · exact ⟨place, rfl, receives, free, rfl⟩
    · rw [free] at found
      cases found

/-- A response file is made exactly where there is room for it. -/
theorem exists_write_iff (arguments : List Bytes) (directory : Path) (w : World) :
    (∃ file w', write arguments directory w = (.ok file, w')) ↔
      Room w (w.directory.join directory) := by
  have absolute := Path.isAbsolute_join w.isAbsolute_directory directory
  rw [room_iff w absolute]
  constructor
  · rintro ⟨file, w', written⟩
    obtain ⟨place, path, receives, -⟩ := exists_place_of_write written
    exact ⟨place, path ▸ receives⟩
  · rintro ⟨place, receives⟩
    have free := (FileTree.exists?_eq_false receives).mp (exists?_freshPath w absolute)
    have written := FileTree.write_of_receives receives 0o600 (contents arguments)
    simp only [free] at written
    refine ⟨freshPath w (w.directory.join directory),
      { w with files := w.files.put place (.file 0o600 (contents arguments)) }, ?_⟩
    simp only [write_eq, written]

/-- A response file that was written holds the arguments, and nothing else has changed. -/
theorem write_eq_ok {file : Path} (h : write arguments directory w = (.ok file, w')) :
    Spilled w (w.directory.join directory) arguments file w' := by
  have fromRoot := Path.isAbsolute_join w.isAbsolute_directory directory
  obtain ⟨n, first, numbered⟩ := exists_firstFree w fromRoot
  have fresh := exists?_freshPath w fromRoot
  have absolute := isAbsolute_freshPath w fromRoot
  obtain ⟨place, path, receives, free, rfl⟩ := exists_place_of_write h
  rw [← path] at fresh absolute numbered
  have notDirectory : w.files.find? place ≠ some .directory := by simp [free]
  have readable : FileTree.modeReads 0o600 = true := by decide
  have read : _ = Except.ok (contents arguments) :=
    FileTree.read_put receives notDirectory readable
  exact
    { absolute, named := ⟨n, first, numbered⟩, fresh, others := rfl
      added := ⟨place, free, rfl⟩
      readable := fun here => (FileTree.read_of_isAbsolute absolute here w.here).trans read }

/-- An argument as a tool takes it: an at sign stands for the arguments in the file behind it. -/
def expand (t : FileTree) (here : Place) (argument : Bytes) : Except SystemFailure (List Bytes) :=
  match argument with
  | [] => .ok [[]]
  | b :: path =>
    if b == Argument.atSign then (t.read here ⟨path⟩).map read else .ok [b :: path]

theorem expand_of_spilled {file : Path} (spilled : Spilled w directory arguments file w')
    (here : Place) :
    expand w'.files here (Argument.responseFile (.temporary file)).render = .ok arguments := by
  change (w'.files.read here file).map read = _
  rw [spilled.readable here, Except.map, read_contents_eq]

end ResponseFile

/-! ### Commands -/

/-- The arguments that a tool sees when it is started with the command. It looks into the response
file if one was made, from the directory in which it runs. -/
def Prepared.seen (p : Prepared) (t : FileTree) (here : Place) :
    Except SystemFailure (List Bytes) :=
  if p.spilled?.isSome then (p.command.arguments.mapM (ResponseFile.expand t here)).map List.flatten
  else .ok p.command.arguments

namespace Executor

variable (e : Executor) (j : Job) (w : World)

/-- Whether the arguments of a job go into a file. -/
def spills : Bool := j.responseFiles && ResponseFile.isNeeded j.argv e.limit

def spillDirectory : Path := e.tempDir?.getD w.temporaryDirectory

theorem prepare_of_stream (stream : j.tool.path? = none) :
    e.prepare j w = (.error (.unsupportedTool j.tool), w) := by
  simp only [prepare, stream]
  rfl

theorem prepare_of_direct {program : Path} (tool : j.tool.path? = some program)
    (direct : e.spills j = false) :
    e.prepare j w = (.ok { command := e.command program j.argv }, w) := by
  rw [spills] at direct
  simp only [prepare, tool, direct]
  rfl

theorem prepare_of_refused {program : Path} (tool : j.tool.path? = some program)
    (spills : e.spills j = true) {failure : SystemFailure} {w' : World}
    (refused : ResponseFile.write j.argv (e.spillDirectory w) w = (.error failure, w')) :
    e.prepare j w = (.error (.responseFile failure), w') := by
  rw [Executor.spills] at spills
  rw [spillDirectory] at refused
  simp only [prepare, tool, spills, if_true, bind, StateT.bind, get, getThe, MonadStateOf.get,
    StateT.get, pure, refused]
  rfl

/-- A job that spills gets the name of its file for its only argument. -/
theorem prepare_of_spilled {program : Path} (tool : j.tool.path? = some program)
    (spills : e.spills j = true) {file : Path} {w' : World}
    (written : ResponseFile.write j.argv (e.spillDirectory w) w = (.ok file, w')) :
    ∃ notices, e.prepare j w = (.ok
      { command := e.command program [(Argument.responseFile (.temporary file)).render]
        spilled? := some file }, { w' with notices }) := by
  rw [Executor.spills] at spills
  rw [spillDirectory] at written
  refine ⟨w'.notices ++ [.log .debug ("Passing " ++ toString j.argv.length
    ++ " argument(s) through response file " ++ file.display)], ?_⟩
  simp only [prepare, tool, spills, if_true, bind, StateT.bind, get, getThe, MonadStateOf.get,
    StateT.get, pure, written]
  rfl

/-- The job is not started, and why. -/
def Refuses (error : ExecutionError) : Prop :=
  e.prepare j w = (.error error, w) ∧ (e.execute j).run w = (.ok (.error error), w)

/-- What is done with the end of a command that was started, or with the failure to start it. -/
def conclude (p : Prepared) (ended : Except SystemFailure Completed) :
    Course (Except ExecutionError Bytes) := do
  if j.inPlace then
    match ended with
    | .ok completed => throw completed
    | .error failure => pure (.error (.inPlace p.command.program failure))
  else
    p.spilled?.forM fun file => ResponseFile.discard file
    match ended with
    | .error failure => pure (.error (.spawn p.command.program failure))
    | .ok completed => pure (outcome p.command completed)

/-- The launch of a command that was prepared, up to the end of the job. -/
def launched (p : Prepared) : Action (Except Completed (Except ExecutionError Bytes)) := do
  let ended ← e.launch { p.command with replaces := j.inPlace }
  (conclude j p ended).run

/-- To execute a job is to prepare it, to launch it and to conclude. -/
theorem execute_eq : e.execute j = (do
    match ← (e.prepare j : Action _) with
    | .error error => pure (.error error)
    | .ok p =>
      log .debug ("Running " ++ j.kind.name ++ " job: " ++ p.command.display)
      let ended ← (e.launch { p.command with replaces := j.inPlace } : Action _)
      conclude j p ended) := by
  refine bind_congr fun prepared => ?_
  cases prepared with
  | error error => rfl
  | ok p =>
    refine bind_congr fun _ => bind_congr fun ended => ?_
    rw [conclude.eq_def]
    cases j.inPlace with
    | true => cases ended <;> rfl
    | false => cases ended <;> rfl

theorem execute_of_error {error : ExecutionError} {w' : World}
    (prepared : e.prepare j w = (.error error, w')) :
    (e.execute j).run w = (.ok (.error error), w') := by
  rw [execute_eq]
  simp only [ExceptT.run, bind, ExceptT.bind, ExceptT.mk, StateT.bind, liftM, monadLift,
    MonadLift.monadLift, ExceptT.lift, Functor.map, StateT.map, prepared, pure]
  rfl

/-- The world in which a command is launched: it has been said that it will be. -/
def announced (j : Job) (c : Command) (w : World) : World :=
  { w with notices :=
      w.notices ++ [.log .debug ("Running " ++ j.kind.name ++ " job: " ++ c.display)] }

theorem run_execute_of_ok {p : Prepared} {w' : World} (prepared : e.prepare j w = (.ok p, w')) :
    (e.execute j).run w = e.launched j p (announced j p.command w') := by
  rw [execute_eq]
  simp only [ExceptT.run, bind, ExceptT.bind, ExceptT.mk, StateT.bind, liftM, monadLift,
    MonadLift.monadLift, ExceptT.lift, Functor.map, StateT.map, prepared, pure]
  rfl

/-- A command that was prepared is launched once, and then the job ends. -/
theorem execute_of_ok {p : Prepared} {w' : World} (prepared : e.prepare j w = (.ok p, w')) :
    ∃ notices, (e.execute j).run w = e.launched j p { w' with notices } :=
  ⟨_, e.run_execute_of_ok j w prepared⟩

/-- The job becomes the command, which is launched as it is, with the files of the given world. The
tool sees the arguments of the job wherever it runs. -/
structure Starts (p : Prepared) (w' : World) : Prop where
  prepared : e.prepare j w = (.ok p, w')
  launched : ∃ notices, (e.execute j).run w = e.launched j p { w' with notices }
  seen : ∀ here, p.seen w'.files here = .ok j.argv

theorem spills_iff : e.spills j = true ↔
    j.responseFiles = true ∧ e.limit < sumOf (j.argv.map fun a => a.length + 1) := by
  rw [spills, ResponseFile.isNeeded, Bool.and_eq_true, decide_eq_true_iff]
  rfl

theorem starts_of_direct {program : Path} (tool : j.tool.path? = some program)
    (direct : e.spills j = false) : e.Starts j w { command := e.command program j.argv } w where
  prepared := e.prepare_of_direct j w tool direct
  launched := e.execute_of_ok j w (e.prepare_of_direct j w tool direct)
  seen _ := rfl

/-- A job whose arguments go into a file is started if there is room for it. -/
theorem starts_of_room {program : Path} (tool : j.tool.path? = some program)
    (spills : e.spills j = true)
    (room : ResponseFile.Room w (w.directory.join (e.spillDirectory w))) :
    ∃ file w', Spilled w (w.directory.join (e.spillDirectory w)) j.argv file w' ∧
      e.Starts j w
        { command := e.command program [Argument.atSign :: file.bytes], spilled? := some file }
        w' := by
  obtain ⟨file, w', written⟩ := (ResponseFile.exists_write_iff j.argv _ w).mpr room
  obtain ⟨notices, prepared⟩ := e.prepare_of_spilled j w tool spills written
  have spilled := (ResponseFile.write_eq_ok written).announced notices
  refine ⟨file, { w' with notices }, spilled, prepared, e.execute_of_ok j w prepared,
    fun here => ?_⟩
  have expanded := ResponseFile.expand_of_spilled spilled here
  simp only [Prepared.seen, Option.isSome_some, if_true, command, List.mapM_cons, List.mapM_nil]
  have rendered : Argument.atSign :: file.bytes
    = (Argument.responseFile (.temporary file)).render := rfl
  rw [rendered, expanded]
  simp [bind, Except.bind, pure, Except.pure, Except.map]

/-- A job whose arguments go into a file is turned down if there is no room for it. -/
theorem refuses_of_not_room {program : Path} (tool : j.tool.path? = some program)
    (spills : e.spills j = true)
    (full : ¬ ResponseFile.Room w (w.directory.join (e.spillDirectory w))) :
    ∃ failure, e.Refuses j w (.responseFile failure) := by
  cases written : ResponseFile.write j.argv (e.spillDirectory w) w with
  | mk result w' =>
    cases result with
    | ok file =>
      have room := (ResponseFile.exists_write_iff j.argv _ w).mp ⟨file, w', written⟩
      exact absurd room full
    | error failure =>
      obtain rfl := ResponseFile.write_eq_error written
      have prepared := e.prepare_of_refused j w' tool spills written
      exact ⟨failure, prepared, e.execute_of_error j w' prepared⟩

/-- A tool that is a stream cannot be started, and nothing happens. Any other tool is started with
exactly the arguments of its job, or, if they may go into a file and are longer than the limit, with
the name of a new file that is read as exactly these arguments. That file is made if there is room
for it; if there is none, nothing else happens either. -/
theorem tool_sees_argv :
    match j.tool.path? with
    | none => e.Refuses j w (.unsupportedTool j.tool)
    | some program =>
      if j.responseFiles = true ∧ e.limit < sumOf (j.argv.map fun a => a.length + 1) then
        (ResponseFile.Room w (w.directory.join (e.spillDirectory w)) → ∃ file w',
          Spilled w (w.directory.join (e.spillDirectory w)) j.argv file w' ∧
          e.Starts j w
            { command :=
                { program
                  arguments := [Argument.atSign :: file.bytes]
                  directory? := e.workingDir? }
              spilled? := some file } w' ∧
          ResponseFile.read (ResponseFile.contents j.argv) = j.argv) ∧
        (¬ ResponseFile.Room w (w.directory.join (e.spillDirectory w)) →
          ∃ failure, e.Refuses j w (.responseFile failure))
      else
        e.Starts j w
          { command := { program, arguments := j.argv, directory? := e.workingDir? } } w := by
  cases tool : j.tool.path? with
  | none =>
    have prepared := e.prepare_of_stream j w tool
    exact ⟨prepared, e.execute_of_error j w prepared⟩
  | some program =>
    simp only [← e.spills_iff j]
    by_cases spills : e.spills j = true
    · rw [if_pos spills]
      refine ⟨fun room => ?_, e.refuses_of_not_room j w tool spills⟩
      obtain ⟨file, w', spilled, starts⟩ := e.starts_of_room j w tool spills room
      exact ⟨file, w', spilled, starts, ResponseFile.read_contents_eq j.argv⟩
    · rw [if_neg spills]
      exact e.starts_of_direct j w tool (by simpa using spills)

/-- Arguments with a blank and with a byte that is no text, in a world with a directory for
temporary files and no limit that they would keep. -/
theorem tool_sees_argv_odd_bytes :
    let e : Executor := { launch := fun _ => pure (.ok ⟨some 0, [], []⟩), limit := 0 }
    let j : Job :=
      { kind := .printTargetInfo, tool := .absolute (.ofString "/t")
        arguments := [.flag "a b", .path (.absolute ⟨[0x2F, 0xFF]⟩)], responseFiles := true }
    let w : World := { files := ⟨[([Utf8.encode "tmp"], .directory)]⟩ }
    let file := Path.ofString "/tmp/arguments-000000.resp"
    ResponseFile.Room w (.ofString "/tmp") ∧ ∃ w', Spilled w (.ofString "/tmp") j.argv file w' ∧
      e.Starts j w
        { command :=
            { program := .ofString "/t"
              arguments := [Utf8.encode "@/tmp/arguments-000000.resp"] }
          spilled? := some file } w' ∧
      w'.files.read [] file = .ok (Utf8.encode "\"a b\"\n/" ++ [0xFF, Ascii.newline]) := by
  intro e j w file
  have directory : w.directory.join (e.spillDirectory w) = .ofString "/tmp" := by rfl
  have first : ResponseFile.FirstFree w (.ofString "/tmp") 0 := by
    exact ⟨by decide +kernel, fun m less => absurd less (Nat.not_lt_zero m)⟩
  have room : ResponseFile.Room w (.ofString "/tmp") := by
    refine ⟨by decide +kernel, fun n first' => ?_⟩
    obtain rfl := first.eq first'
    decide +kernel
  have sees := tool_sees_argv e j w
  have long : j.responseFiles = true ∧ e.limit < sumOf (j.argv.map fun a => a.length + 1) := by
    decide +kernel
  have tool : j.tool.path? = some (.ofString "/t") := rfl
  simp only [tool, if_pos long, directory] at sees
  obtain ⟨made, w', spilled, starts, -⟩ := sees.1 room
  obtain ⟨n, first', path⟩ := spilled.named
  obtain rfl := first.eq first'
  obtain rfl : made = file := path
  have read := spilled.readable []
  have contents : ResponseFile.contents j.argv
      = Utf8.encode "\"a b\"\n/" ++ [0xFF, Ascii.newline] := by
    decide +kernel
  rw [contents] at read
  exact ⟨room, w', spilled, starts, read⟩

end Executor

end TargetQuery
