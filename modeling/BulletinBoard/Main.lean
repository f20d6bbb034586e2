/-
# The program

Reads the arguments, the files of the working folder and, for a template that is rendered, the
terminal; carries the command out; prints, writes files and exits.
-/
import BulletinBoard.CommandLine.Execute
import Std.Time.DateTime.Timestamp

namespace BulletinBoard

/-- The entries of a folder as they are. What cannot be read is left out. -/
partial def snapshot (entries : List IO.FS.DirEntry) : IO Folder := do
  match entries with
  | [] => return .empty
  | entry :: rest =>
    let others ← snapshot rest
    try
      if ← entry.path.isDir then
        return .folder entry.fileName (← snapshot (← entry.path.readDir).toList) others
      else
        return .file entry.fileName (← IO.FS.readBinFile entry.path).toList others
    catch _ => return others

/-- Everything that can still be read from a stream. -/
partial def readAll (stream : IO.FS.Stream) (held : List UInt8) : IO (List UInt8) := do
  let chunk ← stream.read 4096
  if chunk.isEmpty then return held else readAll stream (held ++ chunk.toList)

/-- Whether the arguments ask for a template to be rendered. -/
def rendersTemplate (arguments : List String) : Bool :=
  match CommandLine.Request.ofArguments arguments with
  | .run _ (.render ..) => true
  | _ => false

end BulletinBoard

open BulletinBoard in
/-- The program. -/
def main (arguments : List String) : IO UInt32 := do
  let folder ← snapshot (← (← IO.currentDir).readDir).toList
  let now ← Std.Time.Timestamp.now
  let input ← if rendersTemplate arguments then readAll (← IO.getStdin) [] else pure []
  let around : Surroundings :=
    ⟨⟨folder, []⟩, Moment.ofSeconds now.toSecondsSinceUnixEpoch.val, fun _ => false, 1000000000⟩
  let result := CommandLine.answer around arguments input
  (← IO.getStdout).write (ByteArray.mk result.output.toArray)
  for (path, content) in result.saved do
    IO.FS.writeBinFile path (ByteArray.mk content.toArray)
  return UInt32.ofNat result.code
