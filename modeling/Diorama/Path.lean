namespace Diorama.Path

abbrev Segment := List Char

def segments (cs : List Char) : List Segment :=
  cs.foldr
    (fun c found =>
      if c = '/' then [] :: found
      else match found with
        | s :: rest => (c :: s) :: rest
        | [] => [[c]])
    [[]]

def isIdle (s : Segment) : Bool := s.isEmpty || s == ['.']

def isUp (s : Segment) : Bool := s == ['.', '.']

def isAbsolute (path : String) : Bool := path.toList.head? == some '/'

def body (path : String) : List Char := if isAbsolute path then path.toList.tail else path.toList

-- Drops segments from the end that name nothing: empty ones, and single dots. A single dot in front
-- of a relative path is kept. The segments come last to first.
def dropIdle (absolute : Bool) : List Segment → List Segment
  | [] => []
  | s :: rest =>
    if s.isEmpty || (s == ['.'] && (absolute || !rest.isEmpty)) then dropIdle absolute rest
    else s :: rest

-- The path of the folder that holds a path's last segment. The root and the empty path have none.
def parent? (path : String) : Option String :=
  let absolute := isAbsolute path
  match dropIdle absolute (segments (body path)).reverse with
  | [] => none
  | _ :: rest =>
    let kept := (dropIdle absolute rest).reverse
    some ((if absolute then "/" else "") ++ "/".intercalate (kept.map String.ofList))

def join (folder path : String) : String :=
  if isAbsolute path || folder.isEmpty then path
  else if folder.toList.getLast? == some '/' then folder ++ path
  else folder ++ "/" ++ path

end Diorama.Path
