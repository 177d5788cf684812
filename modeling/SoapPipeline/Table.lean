/-
  SoapPipeline.Table

  Tables of values under text keys.  The entries are in ascending order of
  their keys, and a key occurs once.
-/

namespace SoapPipeline

/-- Entries in ascending order of their keys. -/
abbrev Table (α : Type) := List (String × α)

namespace Table

variable {α : Type}

/-- The value under a key. -/
def get? (key : String) (table : Table α) : Option α :=
  table.lookup key

/-- Sets the value under a key. -/
def insert (key : String) (value : α) : Table α → Table α
  | [] => [(key, value)]
  | (k, v) :: rest =>
    if key < k then (key, value) :: (k, v) :: rest
    else if key = k then (key, value) :: rest
    else (k, v) :: insert key value rest

/-- Removes the value under a key. -/
def erase (key : String) (table : Table α) : Table α :=
  table.filter fun (k, _) => k != key

/-- The table of a list of entries, of which the last one under a key stays. -/
def ofEntries (entries : List (String × α)) : Table α :=
  entries.foldl (fun table (k, v) => insert k v table) []

end Table

end SoapPipeline
