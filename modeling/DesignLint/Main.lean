import DesignLint.CommandLine.Command

/-! The command line over the files of the machine. The files below the current directory and below
every argument are read first; the scanner cannot be launched from here. -/

namespace DesignLint.Machine

/-- Adds a file, or all files below a directory. What cannot be read is passed over. -/
partial def load (t : FileTree) (name : String) : IO FileTree := do
  let place := System.mkFilePath [name]
  if ← place.isDir then
    let entries ← try place.readDir catch _ => pure #[]
    entries.foldlM (fun t e => load t (name ++ "/" ++ e.fileName)) t
  else
    try pure (t.write (.ofString name) (← IO.FS.readBinFile name)) catch _ => pure t

def ignoreFilesAbove (directory : Path) : List String :=
  (Discovery.upwards directory.parent).map fun d => (d.child Discovery.ignoreFile).toString

def files (args : List String) : IO FileTree := do
  let cwd := Path.ofString (← IO.currentDir).toString
  let t ← (ignoreFilesAbove cwd).foldlM load { cwd }
  let t ← load t cwd.toString
  (args.filter fun a => a != "" && a.front != '-').foldlM load t

def scanner : Session.Reply := { output := .error "no process can be started" }

end DesignLint.Machine

open DesignLint in
def main (args : List String) : IO UInt32 := do
  match CommandLine.run (← Machine.files args) [Machine.scanner] args with
  | .ok r =>
    IO.print r.out
    r.errors.forM IO.eprintln
    pure r.exitCode.toUInt32
  | .error _ =>
    IO.eprintln (Command.errorLine "the command broke off")
    pure 1
