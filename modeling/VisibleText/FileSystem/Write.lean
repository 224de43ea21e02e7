import VisibleText.FileSystem.Basic

namespace VisibleText.FileSystem

def write (fs : FileSystem) (p : Path) (content : Bytes) : Except FileError FileSystem := do
  let trailing := p.text.toList.getLast? = some '/'
  match fs.follow true p with
  | .error e =>
    if trailing then
      match fs.follow true ⟨String.ofList (p.text.toList.reverse.dropWhile (· = '/')).reverse⟩ with
      | .ok _ => throw .isDirectory
      | .error e => throw e
    else throw e
  | .ok place =>
    match fs.root.get? place with
    | some (.directory _) => throw .isDirectory
    | _ => return { fs with root := fs.root.set (.file (.ok content)) place }

def makeDirectory (fs : FileSystem) (p : Path) : Except FileError FileSystem := do
  let trimmed : Path := ⟨String.ofList (p.text.toList.reverse.dropWhile (· = '/')).reverse⟩
  let place ← fs.follow false (if trimmed.text.isEmpty then p else trimmed)
  match fs.root.get? place with
  | some _ => throw .exists
  | none => return { fs with root := fs.root.set (.directory []) place }

/-- Makes a directory and those above it that are missing. Directories that could be made stay, also
if the whole fails. -/
def makeDirectories (fs : FileSystem) : Nat → Path → Except FileError Unit × FileSystem
  | 0, _ => (.error .notFound, fs)
  | fuel + 1, p =>
    if p.text.isEmpty then (.ok (), fs)
    else
      match fs.makeDirectory p with
      | .ok fs => (.ok (), fs)
      | .error .notFound =>
        match p.parent? with
        | none => (.error .notFound, fs)
        | some above =>
          match fs.makeDirectories fuel above with
          | (.ok (), fs) =>
            match fs.makeDirectory p with
            | .ok fs => (.ok (), fs)
            | .error e => if fs.isDirectory p then (.ok (), fs) else (.error e, fs)
          | failed => failed
      | .error e => if fs.isDirectory p then (.ok (), fs) else (.error e, fs)

end VisibleText.FileSystem
