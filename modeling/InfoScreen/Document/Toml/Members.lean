import InfoScreen.Document

/-!
# Tables under construction

The tables of a layout file grow while the file is read.  A table may be opened by a header once; a
table that only a deeper header has brought into being may still be opened, and one that dotted
keys have brought into being may only be extended by dotted keys.  Values, and the tables and lists
written inside a value, are closed.
-/

namespace InfoScreen.Toml

/-- What has brought a table into being. -/
inductive Origin where
  /-- Its own header. -/
  | header
  /-- The header of a table inside it. -/
  | implied
  /-- A dotted key. -/
  | dotted
  deriving DecidableEq

inductive Node where
  | value (document : Document)
  | table (origin : Origin) (members : List (String × Node))
  /-- A list of tables, each opened by a header in double brackets. -/
  | series (tables : List (List (String × Node)))

abbrev Members := List (String × Node)

namespace Members

def find? (members : Members) (key : String) : Option Node :=
  (List.find? (fun member ↦ member.1 = key) members).map Prod.snd

/-- Puts a node under a key, in the place of one that is there or else at the end. -/
def put (members : Members) (key : String) (node : Node) : Members :=
  if (members.find? key).isSome then
    members.map fun member ↦ if member.1 = key then (key, node) else member
  else members ++ [(key, node)]

def remove (members : Members) (key : String) : Members :=
  members.filter fun member ↦ member.1 ≠ key

/-- Works on the table at a path of headers.  Missing tables on the way are brought into being, and
in a list of tables the last one is meant. -/
def within {α : Type} (work : Members → Option (α × Members)) :
    List String → Members → Option (α × Members)
  | [], members => work members
  | key :: path, members =>
    match members.find? key with
    | none => do
      let (answer, inner) ← within work path []
      some (answer, members.put key (.table .implied inner))
    | some (.table origin inner) => do
      let (answer, inner) ← within work path inner
      some (answer, members.put key (.table origin inner))
    | some (.series tables) => do
      let last ← tables.getLast?
      let (answer, inner) ← within work path last
      some (answer, members.put key (.series (tables.dropLast ++ [inner])))
    | some (.value _) => none

/-- Assigns a value to a dotted key.  Only tables that dotted keys have brought into being are
extended, and no key is assigned twice. -/
def assign (members : Members) (value : Document) : List String → Option Members
  | [] => none
  | [key] => if (members.find? key).isSome then none else some (members.put key (.value value))
  | key :: part :: path =>
    match members.find? key with
    | none => do
      let inner ← assign [] value (part :: path)
      some (members.put key (.table .dotted inner))
    | some (.table origin inner) =>
      if origin = .header ∨ (origin = .implied ∧ path = []) then none
      else do
        let inner ← assign inner value (part :: path)
        some (members.put key (.table origin inner))
    | some (.series tables) =>
      if path = [] then none
      else do
        let last ← tables.getLast?
        let inner ← assign last value (part :: path)
        some (members.put key (.series (tables.dropLast ++ [inner])))
    | some (.value _) => none

end Members

mutual

def Node.toDocument : Node → Document
  | .value document => document
  | .table _ members => .table (membersToDocuments members)
  | .series tables => .list (seriesToDocuments tables)

def membersToDocuments : List (String × Node) → List (String × Document)
  | [] => []
  | (key, node) :: rest => (key, node.toDocument) :: membersToDocuments rest

def seriesToDocuments : List (List (String × Node)) → List Document
  | [] => []
  | members :: rest => .table (membersToDocuments members) :: seriesToDocuments rest

end

/-- A file under construction: what is closed so far, and the table that the last header has
opened, which is not yet in its place. -/
structure Draft where
  root : Members := []
  /-- Path of the open table; empty before the first header. -/
  path : List String := []
  /-- Whether the open table is one of a list of tables. -/
  inSeries : Bool := false
  members : Members := []

namespace Draft

/-- Puts the open table in its place. -/
def close (draft : Draft) : Option Members :=
  match draft.path.getLast? with
  | none => some draft.members
  | some key =>
    let place (parent : Members) : Option (Unit × Members) :=
      match parent.find? key, draft.inSeries with
      | none, false => some ((), parent.put key (.table .header draft.members))
      | none, true => some ((), parent.put key (.series [draft.members]))
      | some (.series tables), true =>
        some ((), parent.put key (.series (tables ++ [draft.members])))
      | _, _ => none
    (Members.within place draft.path.dropLast draft.root).map Prod.snd

/-- Opens the table of a header.  It may be there already if headers of tables inside it have
brought it into being. -/
def openTable (draft : Draft) (path : List String) : Option Draft := do
  let root ← draft.close
  let key ← path.getLast?
  let take (parent : Members) : Option (Members × Members) :=
    match parent.find? key with
    | none => some ([], parent)
    | some (.table .implied members) => some (members, parent.remove key)
    | some _ => none
  let (members, root) ← Members.within take path.dropLast root
  some { root, path, inSeries := false, members }

def openSeries (draft : Draft) (path : List String) : Option Draft := do
  let root ← draft.close
  let key ← path.getLast?
  let find (parent : Members) : Option (Unit × Members) :=
    match parent.find? key with
    | none => some ((), parent)
    | some (.series _) => some ((), parent)
    | some _ => none
  let (_, root) ← Members.within find path.dropLast root
  some { root, path, inSeries := true, members := [] }

/-- Assigns a value in the open table. -/
def assign (draft : Draft) (path : List String) (value : Document) : Option Draft := do
  let members ← draft.members.assign value path
  some { draft with members }

end Draft

end InfoScreen.Toml
