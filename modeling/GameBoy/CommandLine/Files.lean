import GameBoy.Memory

/-!
Files, as the command line uses them.
-/

namespace GameBoy.CommandLine

/-- Why a file cannot be read or written. -/
inductive FileError
  | notFound
  | denied
  | notDirectory
  | isDirectory
  | nameTooLong
  | other (text : String)
deriving DecidableEq

/-- The report of an error. -/
def FileError.message : FileError → String
  | .notFound => "No such file or directory (os error 2)"
  | .denied => "Permission denied (os error 13)"
  | .notDirectory => "Not a directory (os error 20)"
  | .isDirectory => "Is a directory (os error 21)"
  | .nameTooLong => "File name too long (os error 36)"
  | .other text => text

/-- Access to files by path. -/
structure Files (m : Type → Type) where
  read : String → m (Except FileError Memory)
  present : String → m Bool
  write : String → Memory → m (Except FileError Unit)

/-- The path of the file that belongs beside another: the extension of its name is replaced, or
added if there is none. A name's extension begins at its last point, unless that comes first. A name
without its extension may be just two points; that is the directory above, which has no file beside
it and stands for itself. -/
def withExtension (path : String) (extension : String) : String :=
  let reversed := path.toList.reverse
  let (name, directories) := reversed.span (· ≠ '/')
  match name.dropWhile (· ≠ '.') with
  | ['.', '.'] => String.ofList (directories.reverse ++ ['.', '.'])
  | _ :: first :: more =>
    String.ofList (((first :: more) ++ directories).reverse ++ '.' :: extension.toList)
  | _ => path ++ "." ++ extension

end GameBoy.CommandLine
