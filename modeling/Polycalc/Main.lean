import Polycalc.CommandLine.Run

namespace Polycalc.CommandLine

def findFile (path : String) : IO File := do
  try
    return .content (← IO.FS.readBinFile path)
  catch
    | .noFileOrDirectory .. => return .missing
    | _ => return .unreadable

partial def readAll (stream : IO.FS.Stream) (bytes : ByteArray) : IO ByteArray := do
  let more ← stream.read 65536
  if more.isEmpty then return bytes else readAll stream (bytes ++ more)

def outcome (words : List String) : IO Outcome := do
  let i := Invocation.read? words
  let file ← match i >>= Invocation.configPath? with
    | some path => findFile path
    | none => pure .missing
  let input ← if i.any Invocation.readsInput then readAll (← IO.getStdin) .empty else pure .empty
  return run (fun _ => file) input words

end Polycalc.CommandLine

open Polycalc.CommandLine

def main (words : List String) : IO UInt32 := do
  let o ← outcome words
  for line in o.output do IO.println line
  for line in o.errors do IO.eprintln line
  return .ofNat o.status
