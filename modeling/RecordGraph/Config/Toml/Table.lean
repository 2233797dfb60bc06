import RecordGraph.Config.Setting

/-!
# Tables under construction

The tables of a document while it is read. A table is made by its own header, by the header of a
table inside it, or by a dotted key, and that decides what may still be added to it: a header may
complete only a table that so far was merely implied, and a dotted key may enter only tables that
dotted keys made.
-/

namespace RecordGraph.Toml

/-- What made a table. -/
inductive Origin where
  /-- Its own header. -/
  | header
  /-- The header of a table inside it. -/
  | implied
  /-- A dotted key. -/
  | dotted
  deriving DecidableEq, Repr

/-- What a name stands for in a table. -/
inductive Item where
  /-- A finished setting. -/
  | leaf (s : Setting)
  | table (origin : Origin) (entries : List (String × Item))
  /-- A list of tables; the last one is under construction. -/
  | tables (list : List (List (String × Item)))
  deriving Inhabited

abbrev Entries := List (String × Item)

namespace Entries

def item? (es : Entries) (name : String) : Option Item := es.lookup name

/-- Replaces the entry with a name, or adds it at the end. -/
def put (name : String) (item : Item) : Entries → Entries
  | [] => [(name, item)]
  | (n, i) :: rest => if n = name then (name, item) :: rest else (n, i) :: put name item rest

/-- Changes the table at a path below a table. Missing tables are made on the way, by a dotted key
or by a header, and a dotted key does not enter a table with a header. -/
def within (byDotted : Bool) (act : Origin → Entries → Option Entries) (origin : Origin) :
    List String → Entries → Option Entries
  | [], es => act origin es
  | name :: path, es =>
    match es.item? name with
    | none => do
      let made := if byDotted then Origin.dotted else Origin.implied
      let inner ← within byDotted act made path []
      return es.put name (.table made inner)
    | some (.leaf _) => none
    | some (.table o inner) =>
      if byDotted && o = .header then none
      else do
        let inner ← within byDotted act o path inner
        return es.put name (.table o inner)
    | some (.tables list) =>
      match list.getLast? with
      | none => none
      | some last => do
        let inner ← within byDotted act .header path last
        return es.put name (.tables (list.dropLast ++ [inner]))

/-- Adds a setting under a dotted key. A name is set once, and a key with one name does not add to
a table that dotted keys made. -/
def insert? (path : List String) (name : String) (value : Setting) (es : Entries) :
    Option Entries :=
  within true (fun origin es =>
    if (origin == .dotted) == path.isEmpty then none
    else match es.item? name with
      | some _ => none
      | none => some (es.put name (.leaf value))) .header path es

def openTable? (path : List String) (name : String) (es : Entries) : Option Entries :=
  within false (fun _ es =>
    match es.item? name with
    | none => some (es.put name (.table .header []))
    | some (.table .implied inner) => some (es.put name (.table .header inner))
    | some _ => none) .header path es

/-- Opens one more table of a list of tables. -/
def openListed? (path : List String) (name : String) (es : Entries) : Option Entries :=
  within false (fun _ es =>
    match es.item? name with
    | none => some (es.put name (.tables [[]]))
    | some (.tables list) => some (es.put name (.tables (list ++ [[]])))
    | some _ => none) .header path es

end Entries

/-! ### The finished tree -/

mutual

def Item.setting : Item → Setting
  | .leaf s => s
  | .table _ es => .table (settings es)
  | .tables list => .list (listed list)

def settings : List (String × Item) → List (String × Setting)
  | [] => []
  | (name, i) :: rest => (name, i.setting) :: settings rest

def listed : List (List (String × Item)) → List Setting
  | [] => []
  | es :: rest => .table (settings es) :: listed rest

end

end RecordGraph.Toml
