import HttpWorkbench.Json.Reader
import HttpWorkbench.Json.Writer
import HttpWorkbench.Storage.Path

/-!
# Files

The files and directories around a working directory, as data. A key lists the names from the
working directory down; keys that start with `..` or a slash lie outside. Reading a text decodes
it and unifies its line ends. Writing replaces the whole content at once, except that a document
whose writing stops leaves what was written so far.
-/

namespace HttpWorkbench

/-- What a file holds: a text, or bytes that need not be one. -/
inductive Content where
  | text (s : Text)
  | bytes (content : List UInt8)

namespace Content

/-- The bytes of the file. -/
def raw : Content → List UInt8
  | .text s => Text.Utf8.encode s
  | .bytes b => b

/-- The text of the file, with its line ends as they are. -/
def decoded : Content → Except Text.Utf8.Fault Text
  | .text s => .ok s
  | .bytes b => Text.Utf8.decode b

/-- The text of the file as it is read. -/
def lines (c : Content) : Except Text.Utf8.Fault Text :=
  c.decoded.map Text.unifyNewlines

end Content

/-- What a name in a directory stands for. -/
inductive Node where
  | file (content : Content)
  | directory

/-- The names from the working directory down. -/
abbrev FileKey := List Text

/-- Files and directories, each at its key. -/
structure Files where
  nodes : List (FileKey × Node)

namespace Files

/-- An empty working directory. -/
def empty : Files := ⟨[]⟩

/-- Whether a name in a key is a root. -/
def isRoot (name : Text) : Bool := name.head? == some (.char '/')

/-- Whether the key leads to the working directory, above it, or to a root. -/
def isOutside (key : FileKey) : Bool := key.all fun p => p == ".." || p == "/" || p == "//"

/-- What is at a key. -/
def node? (files : Files) (key : FileKey) : Option Node :=
  if isOutside key then some .directory else Assoc.get? key files.nodes

/-- Put something at a key. -/
def put (files : Files) (key : FileKey) (node : Node) : Files :=
  ⟨Assoc.put key node files.nodes⟩

/-- The directory above. -/
def parent (key : FileKey) : FileKey :=
  match key.getLast? with
  | none => [".."]
  | some p =>
    if p = ".." then key ++ [p] else if isRoot p then key else key.dropLast

/-- The key that one more part of a path leads to. -/
def step (key : FileKey) (part : Text) : FileKey :=
  if part = ".." then parent key else key ++ [part]

/-- The directory that a path starts from. -/
def origin (path : Path) : FileKey := if path.root = "" then [] else [path.root]

/-- The keys that parts lead to one after the other. -/
def keysFrom (base : FileKey) : List Text → List FileKey
  | [] => []
  | p :: rest => let key := step base p; key :: keysFrom key rest

/-- The keys that a path passes, to its end. -/
def keysAlong (path : Path) : List FileKey := keysFrom (origin path) path.parts

/-- The key as a path. -/
def keyText (key : FileKey) : Text :=
  match key with
  | [] => "."
  | p :: rest => if isRoot p then p ++ Text.join "/" rest else Text.join "/" key

/-- Whether the key lies below the working directory. -/
def isBelow (key : FileKey) : Bool := !key.any fun p => p == ".." || isRoot p

/-- Where a path leads. -/
inductive Location where
  | directory
  | file (key : FileKey) (content : Content)
  /-- Nothing is there yet, but its directory is. -/
  | vacant (key : FileKey)

/-- Follow the parts of a path from a directory. A name that is too long is refused before it is
looked up. -/
def follow (files : Files) (base : FileKey) : List Text → Except FileReason Location
  | [] => .ok .directory
  | p :: rest =>
    if p = ".." then follow files (parent base) rest
    else if Path.longestName < Path.nameSize p then .error .nameTooLong
    else
      let key := base ++ [p]
      match files.node? key, rest with
      | some .directory, rest => follow files key rest
      | some (.file content), [] => .ok (.file key content)
      | some (.file _), _ :: _ => .error .notDirectory
      | none, [] => .ok (.vacant key)
      | none, _ :: _ => .error .notFound

/-- Where a path leads. -/
def locate (files : Files) (path : Path) : Except FileReason Location :=
  if Path.longestPath < Path.nameSize path.text then .error .nameTooLong
  else follow files (origin path) path.parts

/-- Why a file could not be opened: the system cannot be given the path, or refuses it. -/
inductive OpenFault where
  | misuse (cause : Misuse)
  | unencodable (fault : Text.Utf8.EncodingFault)
  | file (fault : FileFault)

/-- The failure that a fault is, where `refused` tells how refused paths are told. -/
def OpenFault.failure (refused : FileFault → Failure) : OpenFault → Failure
  | .misuse cause => .misuse cause
  | .unencodable fault => .unencodable fault
  | .file fault => refused fault

/-- Why the system cannot be given a path, if so. -/
def pathFault? (path : Path) : Option OpenFault :=
  match path.encodingFault? with
  | some fault => some (.unencodable fault)
  | none => if path.holdsNull then some (.misuse .nullInPath) else none

/-- Whether there is a file or directory at the path. -/
def pathExists (files : Files) (path : Path) : Result Bool :=
  if (pathFault? path).isSome then .ok false
  else
    match files.locate path with
    | .ok (.vacant _) => .ok false
    | .ok _ => .ok true
    | .error .nameTooLong => .error (.system ⟨.nameTooLong, path.text⟩)
    | .error _ => .ok false

/-- The content of the file at the path. -/
def openFile (files : Files) (path : Path) : Except OpenFault Content :=
  match pathFault? path, files.locate path with
  | some fault, _ => .error fault
  | none, .ok (.file _ content) => .ok content
  | none, .ok .directory => .error (.file ⟨.isDirectory, path.text⟩)
  | none, .ok (.vacant _) => .error (.file ⟨.notFound, path.text⟩)
  | none, .error reason => .error (.file ⟨reason, path.text⟩)

/-- Put a text that can be encoded into the file at the path. -/
def writeText (files : Files) (path : Path) (s : Text) : Except OpenFault Files :=
  match pathFault? path, files.locate path with
  | some fault, _ => .error fault
  | none, .ok (.file key _) => .ok (files.put key (.file (.text s)))
  | none, .ok (.vacant key) => .ok (files.put key (.file (.text s)))
  | none, .ok .directory => .error (.file ⟨.isDirectory, path.text⟩)
  | none, .error reason => .error (.file ⟨reason, path.text⟩)

/-- Save a whole text in the file at the path. A text that cannot be encoded leaves the file
empty. -/
def saveText (files : Files) (path : Path) (s : Text) : Files × Except OpenFault Unit :=
  let fault? := Text.Utf8.encodingFault? s
  match files.writeText path (if fault?.isSome then [] else s), fault? with
  | .error fault, _ => (files, .error fault)
  | .ok files, none => (files, .ok ())
  | .ok files, some fault => (files, .error (.unencodable fault))

/-- The failures that a kind of document has for files it cannot read or write. -/
structure DocumentFailures where
  malformed : Json.Fault → Failure
  unreadable : FileFault → Failure
  unwritable : FileFault → Failure

/-- Read the document at the path. -/
def readDocument (files : Files) (path : Path) (failures : DocumentFailures) : Result Value := do
  let content ← (files.openFile path).mapError (·.failure failures.unreadable)
  let text ← content.lines.mapError Failure.undecodable
  (Json.read text).mapError (·.failure failures.malformed)

/-- What a document comes to in a file: its text as far as it is written, and the failure that stops
writing, if any. A value that cannot be made leaves nothing. -/
def documentText : Result Value → Text × Option Failure
  | .error failure => ("", some failure)
  | .ok v => let output := Json.write .file v; (output.text, output.fault.map (·.failure))

/-- Write a value, made once the file is open, as the document at the path. When writing stops,
what was written stays. -/
def writeDocument (files : Files) (path : Path) (document : Result Value)
    (failures : DocumentFailures) : Files × Result Unit :=
  let (text, stopped) := documentText document
  match files.writeText path text, stopped with
  | .error fault, _ => (files, .error (fault.failure failures.unwritable))
  | .ok files, some failure => (files, .error failure)
  | .ok files, none => (files, .ok ())

/-- A file or directory created together with the directories above it. -/
def create (files : Files) (path : Path) (node : Node) : Files :=
  match (keysAlong path).reverse with
  | [] => files
  | key :: directories =>
    (directories.foldr (fun key files => files.put key .directory) files).put key node

/-- The files with their keys. -/
def contents (files : Files) : List (FileKey × Content) :=
  files.nodes.filterMap fun (key, node) =>
    match node with
    | .file content => some (key, content)
    | .directory => none

/-- The files that are new or hold other bytes than before. -/
def changedSince (before after : Files) : List (FileKey × Content) :=
  after.contents.filter fun (key, content) =>
    match before.node? key with
    | some (.file old) => !(old.raw == content.raw)
    | _ => true

end Files

end HttpWorkbench
