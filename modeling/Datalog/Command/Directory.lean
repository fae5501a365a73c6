import Datalog.Command.Run

/-!
# Running the command in a directory as data

**Type.** A directory is a list of files by path.  It lies two levels below the root of a system of
which nothing else is known but the usual directories at the top and the devices that are empty or
give the standard input.

**Look-up.** A path starts at the root if it begins with a slash, and else in the directory.  Each
part but the last one leads to a directory: empty parts and `.` stay, `..` goes up, at the root to
itself, and a name goes down, or where it is a link to the place that the link is for.  A path that
does not end with a name names nothing to read.
-/

namespace Datalog

section Directory

/-- Files by path. -/
abbrev Directory : Type :=
  List (String × ByteArray)

/-- What a path can name. -/
inductive PathTarget where
  | file (content : ByteArray)
  | emptyDevice
  | standardInput

namespace Directory

/-- The names that lead from the root to the directory.  Its own name is not known: the empty name,
which no path goes down to, stands for it. -/
def location : List String :=
  ["tmp", ""]

/-- The directories at the root. -/
def usual : List String :=
  ["bin", "dev", "etc", "home", "lib", "opt", "proc", "root", "run", "sbin", "srv", "sys", "tmp",
    "usr", "var"]

/-- The names that lead from the root to the devices. -/
def devices : List (List String × PathTarget) :=
  [(["dev", "null"], .emptyDevice), (["proc", "self", "fd", "0"], .standardInput)]

/-- The names that lead from the root to the links, with those that lead to what they are for. -/
def links : List (List String × List String) :=
  [(["dev", "fd"], ["proc", "self", "fd"]), (["dev", "stdin"], ["proc", "self", "fd", "0"]),
    (["proc", "self", "cwd"], location), (["proc", "self", "root"], [])]

/-- Where names lead from the root, the last of which can be a link. -/
def follow (way : List String) : List String :=
  (links.lookup way).getD way

/-- The parts of a path between slashes; `reversed` is the part read so far, last to first. -/
def parts (reversed : List Char) : List Char → List String
  | [] => [String.ofList reversed.reverse]
  | '/' :: rest => String.ofList reversed.reverse :: parts [] rest
  | c :: rest => parts (c :: reversed) rest

/-- Whether a part of a path stays where it is. -/
def isIdle (part : String) : Bool :=
  part = "" || part = "."

/-- The names on the way to a file of the directory. -/
def names (path : String) : List String :=
  (parts [] path.toList).filter fun part => !isIdle part

/-- Everything that can be read, with the names that lead to it from the root. -/
def targets (directory : Directory) : List (List String × PathTarget) :=
  directory.map (fun file => (location ++ names file.1, .file file.2)) ++ devices

/-- Whether names lead from the root to a directory. -/
def leads (directory : Directory) (way : List String) : Bool :=
  usual.any (fun name => way == [name]) || way.isPrefixOf location ||
    directory.targets.any fun target => way.isPrefixOf target.1 && way.length < target.1.length

/-- The names that lead from the root to the end of a path; `reversed` is where the parts before
lead, last name first. -/
def walk? (directory : Directory) (reversed : List String) : List String → Option (List String)
  | [] => none
  | [last] => if isIdle last || last = ".." then none else some (follow (last :: reversed).reverse)
  | part :: rest =>
      if isIdle part then
        walk? directory reversed rest
      else if part = ".." then
        walk? directory reversed.tail rest
      else
        let way := follow (part :: reversed).reverse
        if directory.leads way then walk? directory way.reverse rest else none

/-- What a path names. -/
def target? (directory : Directory) (path : String) : Option PathTarget :=
  let start := if path.toList.head? = some '/' then [] else location.reverse
  match directory.walk? start (parts [] path.toList) with
  | none => none
  | some wanted => (directory.targets.find? fun target => target.1 == wanted).map Prod.snd

/-- The content of a file, and nothing for a device. -/
def file? (directory : Directory) (path : String) : Option ByteArray :=
  match directory.target? path with
  | some (.file content) => some content
  | _ => none

/-- What reading a path gives, and what is left of the standard input. -/
def read (directory : Directory) (path : String) (input : ByteArray) :
    Option ByteArray × ByteArray :=
  match directory.target? path with
  | none => (none, input)
  | some (.file content) => (some content, input)
  | some .emptyDevice => (some ByteArray.empty, input)
  | some .standardInput => (some input, ByteArray.empty)

/-- Runs the command in the directory. -/
def run (directory : Directory) (arguments : List String) (environment : List (String × String)) :
    StateM ByteArray Outcome :=
  Datalog.run (fun path => pure (directory.file? path)) directory.read (modifyGet Lines.splitBlocks)
    (getModify fun _ => ByteArray.empty) arguments environment

end Directory

end Directory

end Datalog
