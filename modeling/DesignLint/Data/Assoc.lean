/-! Lists of named entries that keep the order in which the names came. -/

namespace DesignLint.Assoc

variable {κ α : Type} [BEq κ]

def has (entries : List (κ × α)) (name : κ) : Bool :=
  entries.any (·.1 == name)

/-- Sets an entry. A name that is there keeps its place and takes the new value; a new one goes to
the end. -/
def set (entries : List (κ × α)) (name : κ) (a : α) : List (κ × α) :=
  if has entries name then entries.map fun e => if e.1 == name then (name, a) else e
  else entries ++ [(name, a)]

def erase (entries : List (String × α)) (name : String) : List (String × α) :=
  entries.filter (·.1 != name)

def setAll (entries more : List (String × α)) : List (String × α) :=
  more.foldl (fun acc e => set acc e.1 e.2) entries

/-- Groups values by a name, in the order in which the names first occur. -/
def groupBy (key : α → String) (values : List α) : List (String × List α) :=
  values.foldl (fun acc a => set acc (key a) ((acc.lookup (key a)).getD [] ++ [a])) []

end DesignLint.Assoc
