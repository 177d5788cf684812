/-
  SoapPipeline.Registry

  The registry: what is deployed under which name, in the order in which the
  names came.
-/

import SoapPipeline.QName

namespace SoapPipeline

/-- Entries under names, in the order in which the names came. -/
structure Registry (α : Type) where
  entries : List (QName × α)
  deriving Repr, Inhabited

namespace Registry

variable {α : Type}

def empty : Registry α := ⟨[]⟩

/-- What is registered under a name. -/
def get? (r : Registry α) (name : QName) : Option α :=
  r.entries.lookup name

/-- The names in order. -/
def names (r : Registry α) : List QName := r.entries.map Prod.fst

/-- What is registered, in the order of the names. -/
def items (r : Registry α) : List α := r.entries.map Prod.snd

def size (r : Registry α) : Nat := r.entries.length

def isEmpty (r : Registry α) : Bool := r.entries.isEmpty

/-- Sets the entry of a name where the name stands, or at the end. -/
def insertEntry (name : QName) (item : α) : List (QName × α) → List (QName × α)
  | [] => [(name, item)]
  | (n, i) :: rest =>
    if n = name then (n, item) :: rest else (n, i) :: insertEntry name item rest

/-- Registers something and returns what it displaces.  A name that is there keeps its
place. -/
def insert (r : Registry α) (name : QName) (item : α) : Option α × Registry α :=
  (r.get? name, ⟨insertEntry name item r.entries⟩)

/-- Removes a name and returns what was registered under it. -/
def remove (r : Registry α) (name : QName) : Option α × Registry α :=
  (r.get? name, ⟨r.entries.filter fun (n, _) => n ≠ name⟩)

end Registry

end SoapPipeline
