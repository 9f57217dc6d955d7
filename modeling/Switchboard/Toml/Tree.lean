import Switchboard.Toml.Value

/-!
# Tables under construction

A TOML document names its tables piecemeal: by headers, by dotted keys, and implicitly on the way
to either. How a table came to be decides what may still be added to it:

* a table with a header of its own, or one in an array of tables, is not extended by dotted keys;
* a table made by dotted keys gets no header, and takes further keys by dotted keys only;
* a table implied by the header of a table inside it may still get its own header, once.

A step that would break one of these rules, or set a key twice, is refused.
-/

namespace Switchboard.Toml

/-- How a table came to be. -/
inductive Origin where
  /-- It has a header, or is the whole document, an array element or an inline table. -/
  | header
  /-- It lies on the way to a table with a header. -/
  | implied
  /-- It lies on the way of a dotted key. -/
  | dotted
  deriving DecidableEq, Repr

/-- What stands under a key so far. -/
inductive Node where
  | value (v : Value)
  | table (origin : Origin) (entries : List (String × Node))
  | tables (items : List (List (String × Node)))

/-- A table under construction. -/
structure Tree where
  origin : Origin
  entries : List (String × Node)

namespace Tree

/-- The document before its first line. -/
def root : Tree := ⟨.header, []⟩

/-- Puts a node under a key, in place of what stands there. -/
def putEntry (key : String) (n : Node) : List (String × Node) → List (String × Node)
  | [] => [(key, n)]
  | (k, m) :: rest => if k = key then (key, n) :: rest else (k, m) :: putEntry key n rest

/-- Puts a node under a key, in place of what stands there. -/
def put (key : String) (n : Node) (t : Tree) : Tree :=
  { t with entries := putEntry key n t.entries }

/-- Applies `f` to the table that `path` leads to. Tables missing on the way are made with the
given origin; an array of tables leads to its last table. Dotted keys do not pass tables with
headers. -/
def descend (way : Origin) (f : Tree → Option Tree) : List String → Tree → Option Tree
  | [], t => f t
  | key :: path, t =>
    match t.entries.lookup key with
    | none => do
      let sub ← descend way f path ⟨way, []⟩
      some (t.put key (.table sub.origin sub.entries))
    | some (.value _) => none
    | some (.tables items) => do
      let last ← items.getLast?
      let sub ← descend way f path ⟨.header, last⟩
      some (t.put key (.tables (items.dropLast ++ [sub.entries])))
    | some (.table origin entries) =>
      if way = .dotted ∧ origin = .header then none
      else do
        let sub ← descend way f path ⟨origin, entries⟩
        some (t.put key (.table sub.origin sub.entries))

/-- Puts a value under a dotted key, given as the way to it and its last part. -/
def addValue (path : List String) (key : String) (v : Value) (t : Tree) : Option Tree :=
  descend .dotted
    (fun t =>
      -- a plain key does not go into a table made by dotted keys, nor a dotted one into another
      if decide (t.origin = .dotted) = path.isEmpty then none
      else if (t.entries.lookup key).isSome then none
      else some (t.put key (.value v)))
    path t

/-- Gives the table that `path` and `key` lead to its header. -/
def openTable (path : List String) (key : String) (t : Tree) : Option Tree :=
  descend .implied
    (fun t =>
      match t.entries.lookup key with
      | none => some (t.put key (.table .header []))
      | some (.table .implied entries) => some (t.put key (.table .header entries))
      | some _ => none)
    path t

/-- Adds a table to the array of tables that `path` and `key` lead to. -/
def openElement (path : List String) (key : String) (t : Tree) : Option Tree :=
  descend .implied
    (fun t =>
      match t.entries.lookup key with
      | none => some (t.put key (.tables [[]]))
      | some (.tables items) => some (t.put key (.tables (items ++ [[]])))
      | some _ => none)
    path t

mutual

/-- A node as a finished value. -/
def nodeValue : Node → Value
  | .value v => v
  | .table _ entries => .table (entriesValue entries)
  | .tables items => .array (itemsValue items)

/-- Entries with finished values. -/
def entriesValue : List (String × Node) → List (String × Value)
  | [] => []
  | (key, n) :: rest => (key, nodeValue n) :: entriesValue rest

/-- The tables of an array as finished values. -/
def itemsValue : List (List (String × Node)) → List Value
  | [] => []
  | entries :: rest => .table (entriesValue entries) :: itemsValue rest

end

end Tree

end Switchboard.Toml
