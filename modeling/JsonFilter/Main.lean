import JsonFilter.CommandLine.Response

namespace JsonFilter.CommandLine

def faultOf : IO.Error → ReadFault
  | .noFileOrDirectory .. => .missing
  | .inappropriateType .. => .directory
  | e => .other (toString e)

partial def rest (stream : IO.FS.Stream) (acc : ByteArray) : IO ByteArray := do
  let chunk ← stream.read 65536
  if chunk.isEmpty then return acc
  rest stream (acc ++ chunk)

def readSource (file : Option String) : IO Source := do
  try
    let bytes ← match file with
      | some name => IO.FS.readBinFile name
      | none => do rest (← IO.getStdin) .empty
    return .ok (bytes.toList.map UInt8.toNat)
  catch e => return .error (faultOf e)

def shown (file : String) : IO String := do
  match (← readSource (some file)).bind fun bytes => Source.text (.ok bytes) with
  | .ok text => return text
  | .error _ => return ""

def environ : IO (List (String × String)) := do
  let entries := (← shown "/proc/self/environ").splitOn "\x00"
  return entries.filterMap fun entry =>
    match entry.splitOn "=" with
    | name :: text@(_ :: _) => some (name, String.intercalate "=" text)
    | _ => none

/-- The seconds since the start of 1970, from the start of the machine and the time it is up. -/
def seconds : IO Float := do
  let started := (← shown "/proc/stat").splitOn "\n" |>.findSome? fun line =>
    match line.splitOn " " with
    | ["btime", n] => n.toNat?
    | _ => none
  let up := (((← shown "/proc/uptime").splitOn ".").head?.bind String.toNat?).getD 0
  return Float.ofNat (started.getD 0 + up)

end JsonFilter.CommandLine

open JsonFilter CommandLine

/-- Answers the command line of the process. All looks at the clock show the time of the start, and
local time is that of the zero meridian. -/
def main (args : List String) : IO UInt32 := do
  let source ← match CommandLine.read args with
    | .ok ⟨_, .run _ file _⟩ => readSource file
    | _ => pure (.ok [])
  let now ← seconds
  let host : Filter.Host := ⟨fun _ => now, ← environ, fun _ => 0, .approximate⟩
  let r := respond args ⟨fun _ => source, ⟨host, Filter.Setting.bare.patience⟩⟩
  IO.eprint r.stderr
  IO.print r.stdout
  return (r.code.getD 0).toUInt32
