-- Maps from texts to texts, kept in the order of their keys.

namespace DiagramPress

/-- Texts under keys; the keys ascend. -/
structure TextMap where
  entries : List (String × String)
deriving DecidableEq, Repr

namespace TextMap

def empty : TextMap := ⟨[]⟩

instance : Inhabited TextMap := ⟨empty⟩

/-- Puts a key with its value into ascending entries; a key that is already
there gets the new value. -/
def insertEntry (key value : String) : List (String × String) → List (String × String)
  | [] => [(key, value)]
  | (k, v) :: rest =>
    if key < k then (key, value) :: (k, v) :: rest
    else if key = k then (key, value) :: rest
    else (k, v) :: insertEntry key value rest

def insert (m : TextMap) (key value : String) : TextMap := ⟨insertEntry key value m.entries⟩

def get? (m : TextMap) (key : String) : Option String := m.entries.lookup key

/-- A map of the given entries; of two with one key the later one counts. -/
def ofList (entries : List (String × String)) : TextMap :=
  entries.foldl (fun m (key, value) => m.insert key value) empty

end TextMap

end DiagramPress
