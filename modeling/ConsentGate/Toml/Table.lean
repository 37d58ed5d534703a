import ConsentGate.Node

/-!
# Tables under construction

The tables of a settings text grow line by line. A table may be named by a header of its own, on the
way to another header, or by a dotted key, and each way closes it to some of the others: values and
tables written in place are closed to all, a header names a table once, and a dotted key leads only
through tables without a header of their own, which afterwards can get none.
-/

namespace ConsentGate.Toml

/-- A dotted key: the keys of the tables on the way, and the last one. -/
structure Key where
  path : List String
  last : String
  deriving DecidableEq

/-- How a table came about. -/
inductive Origin where
  /-- A header named it on the way to another table. -/
  | passed
  /-- A dotted key named it. -/
  | dotted
  /-- A header of its own named it. -/
  | written
  deriving DecidableEq

/-- What stands under a key while the text is read. -/
inductive Item where
  /-- A value, or a list or table written in place. -/
  | closed (value : Node)
  | table (origin : Origin) (entries : List (String × Item))
  /-- The tables of a repeated header; only the last one grows. -/
  | tables (earlier : List Node) (last : List (String × Item))

mutual

/-- The node of an item. -/
def Item.node : Item → Node
  | .closed value => value
  | .table _ entries => .table (nodes entries)
  | .tables earlier last => .list (earlier ++ [.table (nodes last)])

/-- The entries of a table, as nodes. -/
def nodes : List (String × Item) → List (String × Node)
  | [] => []
  | (key, item) :: rest => (key, item.node) :: nodes rest

end

/-- The entries with a new key; none when the key is there. -/
def insertNew (key : String) (item : Item) (entries : List (String × Item)) :
    Option (List (String × Item)) :=
  if (entries.lookup key).isSome then none else some (entries ++ [(key, item)])

/-- A change of the table at the end of a path below a table of some origin. Missing tables on the
way are made. A dotted key passes no table with a header of its own, and every other table that it
passes counts as named by it. -/
def descend (byKey : Bool)
    (change : Origin → List (String × Item) → Option (List (String × Item))) :
    List String → Origin → List (String × Item) → Option (List (String × Item))
  | [], origin, entries => change origin entries
  | key :: path, _, entries =>
    match entries.lookup key with
    | none => do
      let origin := if byKey then Origin.dotted else .passed
      let inner ← descend byKey change path origin []
      return upsert key (fun _ => .table origin inner) entries
    | some (.table origin inner) =>
      if byKey ∧ origin = .written then none
      else do
        let origin := if byKey then Origin.dotted else origin
        let inner ← descend byKey change path origin inner
        return upsert key (fun _ => .table origin inner) entries
    | some (.tables earlier last) => do
      let last ← descend byKey change path .written last
      return upsert key (fun _ => .tables earlier last) entries
    | some (.closed _) => none

/-- The entries of a table with a value under a dotted key. The key must be new, and the table that
it ends in must be the one at hand or one without a header of its own. -/
def assign (key : Key) (value : Node) (entries : List (String × Item)) :
    Option (List (String × Item)) :=
  descend true
    (fun origin inner =>
      if key.path = [] ∨ origin = .dotted then insertNew key.last (.closed value) inner else none)
    key.path .written entries

/-- The entries of a table with values under some dotted keys, in their order. -/
def assignAll : List (Key × Node) → List (String × Item) → Option (List (String × Item))
  | [], entries => some entries
  | (key, value) :: rest, entries => (assign key value entries).bind (assignAll rest)

/-- The table written in place with the given values. -/
def inlineTable? (fields : List (Key × Node)) : Option Node :=
  (assignAll fields []).map fun entries => .table (nodes entries)

/-- The root table with a section: a header for a table, and values for it. The table must be new,
or have been named on the way only. -/
def addTable (key : Key) (fields : List (Key × Node)) (root : List (String × Item)) :
    Option (List (String × Item)) :=
  descend false
    (fun _ entries =>
      match entries.lookup key.last with
      | none => do
        let inner ← assignAll fields []
        return upsert key.last (fun _ => .table .written inner) entries
      | some (.table .passed inner) => do
        let inner ← assignAll fields inner
        return upsert key.last (fun _ => .table .written inner) entries
      | some _ => none)
    key.path .written root

/-- The root table with a section of a repeated header, which adds one more table. -/
def addRepeated (key : Key) (fields : List (Key × Node)) (root : List (String × Item)) :
    Option (List (String × Item)) :=
  descend false
    (fun _ entries =>
      match entries.lookup key.last with
      | none => do
        let inner ← assignAll fields []
        return upsert key.last (fun _ => .tables [] inner) entries
      | some (.tables earlier last) => do
        let inner ← assignAll fields []
        return upsert key.last (fun _ => .tables (earlier ++ [.table (nodes last)]) inner) entries
      | some _ => none)
    key.path .written root

end ConsentGate.Toml
