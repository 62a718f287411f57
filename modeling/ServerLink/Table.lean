/-!
# Finite tables

A table is a list of keys with their values in which no key comes twice.
-/

namespace ServerLink

abbrev Table (κ α : Type) := List (κ × α)

namespace Table

variable {κ α : Type} [BEq κ]

/-- The table without a key. -/
def erase (t : Table κ α) (k : κ) : Table κ α := t.filter fun e => !(e.1 == k)

/-- The table with a key's value set; the entry comes last. -/
def insert (t : Table κ α) (k : κ) (a : α) : Table κ α := erase t k ++ [(k, a)]

def keys (t : Table κ α) : List κ := t.map (·.1)

def values (t : Table κ α) : List α := t.map (·.2)

end Table

end ServerLink
