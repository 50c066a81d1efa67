import TargetQuery.Script.Utility.Dump
import TargetQuery.Script.Utility.Edit
import TargetQuery.Script.Utility.Find
import TargetQuery.Script.Utility.Layout
import TargetQuery.Script.Utility.Plain
import TargetQuery.Script.Utility.Search
import TargetQuery.Script.Utility.Test
import TargetQuery.Script.Utility.Text

/-!
# The programs of the machine

Which utilities there are, by their names; and the names of the shell.
-/

namespace TargetQuery.Script

def utilities : List (String × Utility) :=
  [("[", Utility.bracket), ("base64", Utility.base64), ("basename", Utility.basename),
    ("cat", Utility.cat), ("chmod", Utility.chmod), ("cmp", Utility.cmp), ("cp", Utility.cp),
    ("cut", Utility.cut), ("dirname", Utility.dirname), ("echo", Utility.echo),
    ("expr", Utility.expr), ("false", Utility.constantly 1), ("find", Utility.find),
    ("fold", Utility.fold), ("grep", Utility.grep), ("head", Utility.head), ("id", Utility.id),
    ("ls", Utility.ls), ("mkdir", Utility.mkdir), ("mktemp", Utility.mktemp), ("mv", Utility.mv),
    ("nl", Utility.nl), ("od", Utility.od), ("paste", Utility.paste),
    ("printenv", Utility.printenv), ("printf", Utility.printf), ("pwd", Utility.pwd),
    ("readlink", Utility.readlink), ("realpath", Utility.realpath), ("rev", Utility.rev),
    ("rm", Utility.rm), ("rmdir", Utility.rmdir), ("sed", Utility.sed), ("seq", Utility.seq),
    ("sleep", Utility.sleep), ("sort", Utility.sort), ("stat", Utility.stat),
    ("tac", Utility.tac), ("tail", Utility.tail), ("tee", Utility.tee), ("test", Utility.test),
    ("touch", Utility.touch), ("tr", Utility.tr), ("true", Utility.constantly 0),
    ("uname", Utility.uname), ("uniq", Utility.uniq), ("wc", Utility.wc),
    ("which", Utility.which), ("whoami", Utility.whoami), ("yes", Utility.yes)]

def shellNames : List String := ["sh", "dash", "bash"]

def programNames : List String := "env" :: "xargs" :: shellNames ++ utilities.map (·.1)

def programDirectories : List String := ["/bin", "/usr/bin"]

/-- How files of machine code begin, which shows that they are no texts. -/
def machineMark : Bytes := [0x7F, 0x45, 0x4C, 0x46, 0x02, 0x01, 0x01, 0x00, 0xFF]

/-- The content of a program of the machine. It tells by its name what it does, wherever it is. -/
def machineCode (name : String) : Bytes := machineMark ++ ascii name

def programOf? (content : Bytes) : Option String :=
  programNames.find? fun name => content == machineCode name

def commonDirectories : List String :=
  ["/dev", "/etc", "/home", "/opt", "/proc", "/root", "/run", "/sbin", "/srv", "/sys", "/tmp",
    "/usr/lib", "/usr/local/bin", "/usr/sbin", "/usr/share", "/var"]

def users : String := "root:x:0:0:root:/root:/bin/bash\n"

/-- The files of a machine with its programs and nothing of anybody's own. -/
def machine : FileTree :=
  let root := FileTree.mk []
  let directory (t : FileTree) (name : String) : FileTree :=
    (t.makeAllDirectories [] (Path.ofString name)).toOption.getD t
  let file (t : FileTree) (name : String) (mode : Nat) (content : Bytes) : FileTree :=
    (t.write [] (Path.ofString name) mode content).toOption.getD t
  let t := (commonDirectories ++ programDirectories).foldl directory root
  let device (t : FileTree) (name : String) (full : Bool) : FileTree :=
    t.put [ascii "dev", ascii name] (.device full)
  let t := device (device t "null" false) "full" true
  let t := file t "/etc/passwd" 0o644 (ascii users)
  programDirectories.foldl (fun t d =>
    programNames.foldl (fun t name => file t (d ++ "/" ++ name) 0o755 (machineCode name)) t) t

end TargetQuery.Script
