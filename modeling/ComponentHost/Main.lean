/-
# `ComponentHost.Main` — the command line program

The program reads the arguments, lets a session do the work, and prints its report:
the log with the time of day and the lines of the task to the output, traced entries
and the failure to the error output.
-/
import ComponentHost.Cli.Session
import ComponentHost.Component.Package
import Std.Time.Format

namespace ComponentHost.Cli

/-- The number of a system error, which may come with its sign changed. -/
def errorNumber (code : UInt32) : Nat :=
  min code.toNat (0 - code).toNat

def ioErrorOf : IO.Error → IoError
  | .noFileOrDirectory .. => .notFound
  | .inappropriateType _ code details =>
    match errorNumber code with
    | 20 => .notDirectory
    | 21 => .isDirectory
    | _ => .other details
  | .invalidArgument _ code details =>
    if errorNumber code = 36 then .nameTooLong else .other details
  | .permissionDenied .. => .other "Permission denied (os error 13)"
  | e => .other (toString e)

def readFile (path : String) : IO (Except IoError ByteArray) := do
  if path.toList.contains '\x00' then return .error .nulByte
  try
    return .ok (← IO.FS.readBinFile path)
  catch e =>
    return .error (ioErrorOf e)

/-- Tries a transpilation, and gives the hundredths of a second that it took. -/
def measure (h : Host) : Except IoError ByteArray → IO Nat
  | .error _ => return 0
  | .ok bytes => do
    let start ← IO.monoMsNow
    discard <| IO.lazyPure fun _ => h.transpiler.transpile 0 bytes {}
    let stop ← IO.monoMsNow
    return (stop - start + 5) / 10

/-- Draws a number of 120 random bits. -/
def drawNumber : IO Nat := do
  let bytes ← IO.getRandomBytes 15
  return bytes.data.foldl (fun n b => n * 256 + b.toNat) 0

/-- The files, the clock and the dice of this machine. -/
def machine : Surroundings IO := ⟨readFile, measure, drawNumber⟩

def timeOfDay : IO String := do
  return (← Std.Time.PlainTime.now).format "HH:mm:ss"

def Report.print (r : Report) : IO UInt32 := do
  let time ← timeOfDay
  for e in r.traced do
    IO.eprintln (time ++ " " ++ e.level.name ++ " " ++ e.message)
  for e in r.log do
    IO.println (e.display time)
  for line in r.lines do
    IO.println line
  if let some e := r.failure then
    IO.eprintln ("Error: " ++ e)
  return r.code.toUInt32

def Notice.print (n : Notice) : IO UInt32 := do
  if n.code = 0 then IO.println n.text else IO.eprintln n.text
  return n.code.toUInt32

end ComponentHost.Cli

/-- Runs the program. -/
def main (args : List String) : IO UInt32 := do
  match ComponentHost.Cli.Request.ofArguments args with
  | .error n => n.print
  | .ok q => (← ComponentHost.Cli.machine.session ComponentHost.Package.engine q).print
