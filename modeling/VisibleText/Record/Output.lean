import VisibleText.FileSystem.Write
import VisibleText.Record.Json

namespace VisibleText.Record

def save (fs : FileSystem) (p : Path) (records : List Record) : Except String Unit × FileSystem :=
  let above := match p.parent? with
    | some d => d
    | none => ⟨""⟩
  match fs.makeDirectories (above.text.length + 1) above with
  | (.error e, fs) => (.error ("Failed to create directory: " ++ above.text ++ ": " ++ e.message), fs)
  | (.ok (), fs) =>
    match fs.write p (utf8 (render records).toList) with
    | .ok fs => (.ok (), fs)
    | .error e => (.error ("Failed to write file: " ++ p.text ++ ": " ++ e.message), fs)

def saveAll (fs : FileSystem) (p : Path) (n : Nat) :
    List (List Record) → Except String (List Path) × FileSystem
  | [] => (.ok [], fs)
  | piece :: rest =>
    match save fs (p.numbered n) piece with
    | (.error e, fs) => (.error e, fs)
    | (.ok (), fs) =>
      match saveAll fs p (n + 1) rest with
      | (.error e, fs) => (.error e, fs)
      | (.ok paths, fs) => (.ok (p.numbered n :: paths), fs)

def write (fs : FileSystem) (p : Path) (limit : Option Nat) (records : List Record) :
    Except String (List Path) × FileSystem :=
  saveAll fs p 1 (splitRecords limit records)

end VisibleText.Record
