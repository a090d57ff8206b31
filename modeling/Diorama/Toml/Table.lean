import Diorama.Toml

namespace Diorama.Toml

inductive Origin where
  -- on the way to a header
  | passed
  -- by dotted keys
  | dotted
  -- by its own header
  | opened
  deriving DecidableEq, Repr

inductive Entry where
  | value (v : Toml)
  | table (origin : Origin) (entries : List (String × Entry))
  | tables (elements : List (List (String × Entry)))

abbrev Entries := List (String × Entry)

namespace Entries

def put (key : String) (e : Entry) : Entries → Entries
  | [] => [(key, e)]
  | (k, old) :: rest => if k = key then (key, e) :: rest else (k, old) :: put key e rest

-- Changes the table at the end of a path, making tables on the way. A value is no table; of a row
-- of tables the last one is meant; a dotted path does not enter a table that was opened.
def update (dotted : Bool) (f : Origin → Entries → Option Entries) :
    (path : List String) → Origin → Entries → Option Entries
  | [], origin, entries => f origin entries
  | k :: path, _, entries =>
    match entries.lookup k with
    | none => do
      let made := if dotted then Origin.dotted else .passed
      pure (entries.put k (.table made (← update dotted f path made [])))
    | some (.value _) => none
    | some (.table origin inner) =>
      if dotted && origin = .opened then none
      else do pure (entries.put k (.table origin (← update dotted f path origin inner)))
    | some (.tables elements) => do
      let last ← elements.getLast?
      let changed ← update dotted f path .opened last
      pure (entries.put k (.tables (elements.dropLast ++ [changed])))

def addPair (path : List String) (key : String) (v : Toml) : Origin → Entries → Option Entries :=
  update true
    (fun origin entries =>
      if (origin == .dotted) == path.isEmpty || (entries.lookup key).isSome then none
      else some (entries.put key (.value v)))
    path

def openTable (path : List String) (key : String) : Entries → Option Entries :=
  update false
    (fun _ entries =>
      match entries.lookup key with
      | none => some (entries.put key (.table .opened []))
      | some (.table .passed inner) => some (entries.put key (.table .opened inner))
      | _ => none)
    path .opened

def addTable (path : List String) (key : String) : Entries → Option Entries :=
  update false
    (fun _ entries =>
      match entries.lookup key with
      | none => some (entries.put key (.tables [[]]))
      | some (.tables elements) => some (entries.put key (.tables (elements ++ [[]])))
      | _ => none)
    path .opened

end Entries

mutual

def Entry.toToml : Entry → Toml
  | .value v => v
  | .table _ entries => .table (fieldsOf entries)
  | .tables elements => .array (rowsOf elements)

def fieldsOf : List (String × Entry) → List (String × Toml)
  | [] => []
  | (k, e) :: rest => (k, e.toToml) :: fieldsOf rest

def rowsOf : List (List (String × Entry)) → List Toml
  | [] => []
  | entries :: rest => .table (fieldsOf entries) :: rowsOf rest

end

end Diorama.Toml
