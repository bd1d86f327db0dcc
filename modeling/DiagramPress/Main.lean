-- The program on a real machine: files, streams and the clock.
import DiagramPress.Console.Program
import DiagramPress.Moment
import Std.Time.DateTime.Timestamp

namespace DiagramPress.Machine

open Console (FileError Surroundings)

/-- The number and the words that the system has for an error. -/
def systemError? : IO.Error → Option (UInt32 × String)
  | .alreadyExists _ n t => some (n, t)
  | .otherError n t => some (n, t)
  | .resourceBusy n t => some (n, t)
  | .resourceVanished n t => some (n, t)
  | .unsupportedOperation n t => some (n, t)
  | .hardwareFault n t => some (n, t)
  | .unsatisfiedConstraints n t => some (n, t)
  | .illegalOperation n t => some (n, t)
  | .protocolError n t => some (n, t)
  | .timeExpired n t => some (n, t)
  | .interrupted _ n t => some (n, t)
  | .noFileOrDirectory _ n t => some (n, t)
  | .invalidArgument _ n t => some (n, t)
  | .permissionDenied _ n t => some (n, t)
  | .resourceExhausted _ n t => some (n, t)
  | .inappropriateType _ n t => some (n, t)
  | .noSuchThing _ n t => some (n, t)
  | .unexpectedEof => none
  | .userError _ => none

/-- The number of a system error; some calls give it with a minus sign. -/
def plainNumber (n : UInt32) : Nat := if n < 0x80000000 then n.toNat else (0 - n).toNat

def fileError (e : IO.Error) : FileError :=
  match systemError? e with
  | none => .other (toString e)
  | some (n, t) =>
    match plainNumber n with
    | 2 => .missing
    | 17 => .taken
    | 20 => .notFolder
    | 21 => .isFolder
    | n => .other (t.capitalize ++ " (os error " ++ toString n ++ ")")

def guarded {β : Type} (action : IO β) : IO (Except FileError β) := do
  try
    return .ok (← action)
  catch e => return .error (fileError e)

def textOf (bytes : ByteArray) : Except FileError String :=
  match String.fromUTF8? bytes with
  | some t => .ok t
  | none => .error .noText

def isFolder (path : String) : IO Bool := do
  try
    return ← (← IO.FS.realPath path).isDir
  catch _ => return false

/-- Makes a folder, unless it is there. -/
def claimFolder (path : String) : IO Unit := do
  try
    IO.FS.createDir path
  catch e =>
    if ← isFolder path then pure () else throw e

/-- Makes a folder; if the one around it is missing, that one comes first. -/
partial def makeFolder (path : String) : IO Unit := do
  try
    IO.FS.createDir path
  catch e =>
    match fileError e, Console.folderOf? path with
    | .missing, some above =>
      makeFolder above
      claimFolder path
    | _, _ => claimFolder path

def surroundings : Surroundings IO where
  read path := do return (← guarded (IO.FS.readBinFile path)).bind textOf
  write path text := guarded do
    match Console.folderOf? path with
    | some folder => makeFolder folder
    | none => pure ()
    IO.FS.writeFile path text
  input := do
    let stdin ← IO.getStdin
    if ← stdin.isTty then return .error .keyboard
    return (← guarded stdin.readBinToEnd).bind textOf
  print text := do
    let stdout ← IO.getStdout
    stdout.putStr text
    stdout.flush
  complain text := do
    let stderr ← IO.getStderr
    stderr.putStr text

/-- The time of the clock as a text. -/
def now : IO String := do
  let time ← Std.Time.Timestamp.now
  return Moment.text time.toMillisecondsSinceUnixEpoch.val.toNat

end DiagramPress.Machine

def main (args : List String) : IO UInt32 := do
  let code ← DiagramPress.Console.run DiagramPress.Machine.surroundings
    (← DiagramPress.Machine.now) args
  return code.toUInt32
