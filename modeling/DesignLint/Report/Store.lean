import DesignLint.Data.Assoc

/-! What several sources have published about several documents. A document is listed while some
source has an entry for it, and a source while its list is not empty; both keep the place they got
when they were last listed anew. -/

namespace DesignLint

structure Store (α : Type) where
  documents : List (String × List (String × List α)) := []
  deriving Repr

namespace Store

variable {α : Type}

def sources (s : Store α) (document : String) : List (String × List α) :=
  (s.documents.lookup document).getD []

/-- Sets the sources of a document; a document without sources is not listed. -/
def setSources (s : Store α) (document : String) (sources : List (String × List α)) : Store α :=
  if sources.isEmpty then ⟨Assoc.erase s.documents document⟩
  else ⟨Assoc.set s.documents document sources⟩

/-- A source publishes entries about a document in place of those before. -/
def replace (s : Store α) (document source : String) (entries : List α) : Store α :=
  let sources := s.sources document
  s.setSources document
    (if entries.isEmpty then Assoc.erase sources source else Assoc.set sources source entries)

def getSource (s : Store α) (document source : String) : List α :=
  ((s.sources document).lookup source).getD []

def get (s : Store α) (document : String) : List α :=
  (s.sources document).flatMap (·.2)

def clear (s : Store α) (document : String) : Store α :=
  ⟨Assoc.erase s.documents document⟩

def clearAll (_ : Store α) : Store α :=
  ⟨[]⟩

def clearSources (s : Store α) (document : String) (sources : List String) : Store α :=
  s.setSources document (sources.foldl Assoc.erase (s.sources document))

def all (s : Store α) : List (String × List α) :=
  s.documents.map fun d => (d.1, d.2.flatMap (·.2))

def documentNames (s : Store α) : List String :=
  s.documents.map (·.1)

def size (s : Store α) : Nat :=
  s.documents.foldr (fun d n => (d.2.flatMap (·.2)).length + n) 0

end Store

end DesignLint
