import FormLogic.Settings.Setting
import FormLogic.Settings.Toml.Text

/-!
This module contains the tables that the lines of a TOML file describe. For every table it is known
how it came about, since that decides which lines may add to it.
-/

namespace FormLogic.Toml

inductive Statement where
  | header (key : Key)
  | item (key : Key)
  | assign (key : Key) (value : Setting)

inductive Origin where
  /-- The table has a header of its own. -/
  | header
  /-- The table is around another one that has a header. -/
  | implied
  /-- The table is around a value under a dotted key. -/
  | dotted
deriving DecidableEq

inductive Tree where
  | leaf (value : Setting)
  | table (origin : Origin) (members : List (String × Tree))
  /-- A list of tables that have headers. Only the last one can get further members. -/
  | tables (earlier : List Setting) (last : List (String × Tree))

namespace Tree

mutual

def toSetting : Tree → Setting
  | leaf value => value
  | table _ ms => .table (toSettings ms)
  | tables earlier last => .list (earlier ++ [.table (toSettings last)])

def toSettings : List (String × Tree) → List (String × Setting)
  | [] => []
  | (k, t) :: ms => (k, t.toSetting) :: toSettings ms

end

def alter? (name : String) (change : Option Tree → Option Tree) :
    List (String × Tree) → Option (List (String × Tree))
  | [] => (change none).map fun t => [(name, t)]
  | (k, t) :: ms =>
    if k = name then
      (change (some t)).map fun t => (k, t) :: ms
    else
      (alter? name change ms).map ((k, t) :: ·)

/--
Change the members of a table inside of tables, which are made if they are missing. Dotted keys do
not reach into tables that have a header.
-/
def within? (dotted : Bool) (change : List (String × Tree) → Option (List (String × Tree))) :
    List String → List (String × Tree) → Option (List (String × Tree))
  | [], ms => change ms
  | name :: names, ms =>
    alter? name
      (fun
        | none =>
          (within? dotted change names []).map (table (if dotted then .dotted else .implied))
        | some (table origin inner) =>
          if dotted ∧ origin = .header then
            none
          else
            (within? dotted change names inner).map (table origin)
        | some (tables earlier last) =>
          if dotted then none else (within? dotted change names last).map (tables earlier)
        | some (leaf _) => none)
      ms

/--
The table of a header can be there already if another header implied it.
-/
def openTable? : Option Tree → Option Tree
  | none => some (table .header [])
  | some (table .implied ms) => some (table .header ms)
  | some _ => none

def openItem? : Option Tree → Option Tree
  | none => some (tables [] [])
  | some (tables earlier last) => some (tables (earlier ++ [.table (toSettings last)]) [])
  | some _ => none

def assign? (value : Setting) : Option Tree → Option Tree
  | none => some (leaf value)
  | some _ => none

def perform? : List String × List (String × Tree) → Statement →
    Option (List String × List (String × Tree))
  | (_, ms), .header key =>
    (within? false (alter? key.name openTable?) key.tables ms).map (key.names, ·)
  | (_, ms), .item key =>
    (within? false (alter? key.name openItem?) key.tables ms).map (key.names, ·)
  | (current, ms), .assign key value =>
    (within? false (within? true (alter? key.name (assign? value)) key.tables) current ms).map
      (current, ·)

def ofStatements? (statements : List Statement) : Option (List (String × Setting)) := do
  let (_, ms) ← statements.foldlM perform? ([], [])
  return toSettings ms

end Tree

end FormLogic.Toml
