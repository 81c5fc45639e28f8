import DesignLint.Proofs.CheckedDocuments
import DesignLint.Proofs.GroupedFindings

/-! The names under which documents are kept. Resolving a path leaves names that stand for themselves, and the text of
such a path is read back as the same path. So a document has one key, however its path is written, and everything that
is kept about it, by checks, scans of its file and scans of the workspace, goes by that key. -/

namespace DesignLint

namespace Path

section Reading

end Reading

section Resolving

variable {cwd p q : Path}

end Resolving

end Path

namespace Session

section Documents

variable {s : Session} {path key : String} (hkey : s.workspace.key path = .ok key)

include hkey

variable (hagain : s.workspace.key key = .ok key) (launch : Launcher) (text : Option String) (force : Bool)

include hagain

end Documents

end Session

end DesignLint
