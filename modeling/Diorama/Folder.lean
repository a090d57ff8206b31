import Diorama.Path

namespace Diorama

inductive ReadFault where
  | notFound
  | notFolder
  | isFolder
  | nameTooLong
  | zeroInName
  | other (text : String)
  deriving DecidableEq, Repr

def ReadFault.message : ReadFault → String
  | .notFound => "No such file or directory (os error 2)"
  | .notFolder => "Not a directory (os error 20)"
  | .isFolder => "Is a directory (os error 21)"
  | .nameTooLong => "File name too long (os error 36)"
  | .zeroInName => "file name contained an unexpected NUL byte"
  | .other text => text

structure Folder where
  -- the latest first
  files : List (List Path.Segment × String)
  folders : List (List Path.Segment)

-- Where a path has led. Of what lies around the folder only the folders that hold it are known.
inductive Place where
  | inside (names : List Path.Segment)
  | outside
  deriving DecidableEq, Repr

namespace Folder

def empty : Folder := ⟨[], []⟩

def makeWay (f : Folder) (names : List Path.Segment) : List Path.Segment → Folder × List Path.Segment
  | [] => (f, names)
  | s :: rest =>
    if Path.isIdle s then f.makeWay names rest
    else if Path.isUp s then f.makeWay names.dropLast rest
    else
      let inner := names ++ [s]
      makeWay { f with folders := inner :: f.folders } inner rest

def write (f : Folder) (path text : String) : Folder :=
  let segments := Path.segments path.toList
  let (f, names) := f.makeWay [] segments.dropLast
  { f with files := (names ++ segments.getLast?.toList, text) :: f.files }

def ofFiles (files : List (String × String)) : Folder :=
  files.foldl (fun f (path, text) => f.write path text) empty

def file? (f : Folder) (names : List Path.Segment) : Option String := f.files.lookup names

def isFolder (f : Folder) (names : List Path.Segment) : Bool :=
  names.isEmpty || f.folders.contains names

def longestName : Nat := 255

def longestPath : Nat := 4095

def step (f : Folder) (s : Path.Segment) : Place → Except ReadFault Place
  | .inside names =>
    if Path.isIdle s then .ok (.inside names)
    else if Path.isUp s then .ok (if names.isEmpty then .outside else .inside names.dropLast)
    else if longestName < (String.ofList s).utf8ByteSize then .error .nameTooLong
    else if (f.file? (names ++ [s])).isSome || f.isFolder (names ++ [s]) then
      .ok (.inside (names ++ [s]))
    else .error .notFound
  | .outside =>
    if Path.isIdle s || Path.isUp s then .ok .outside
    else if longestName < (String.ofList s).utf8ByteSize then .error .nameTooLong
    else .error .notFound

def fileAt? (f : Folder) : Place → Option String
  | .inside names => f.file? names
  | .outside => none

def walk (f : Folder) (place : Place) : List Path.Segment → Except ReadFault Place
  | [] => .ok place
  | s :: rest => do
    if (f.fileAt? place).isSome then .error .notFolder
    f.walk (← f.step s place) rest

def read (f : Folder) (path : String) : Except ReadFault String := do
  if path.toList.contains '\x00' then .error .zeroInName
  if path.isEmpty then .error .notFound
  if longestPath < path.utf8ByteSize then .error .nameTooLong
  let start := if Path.isAbsolute path then Place.outside else .inside []
  match f.fileAt? (← f.walk start (Path.segments (Path.body path))) with
  | some text => .ok text
  | none => .error .isFolder

end Folder
end Diorama
