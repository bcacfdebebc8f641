import Std.Time
import TermRewriting.Console.Program

/-!
# The program

Reads lines from standard input and files from disk, and writes what the console has to say. All
decisions are made by the modules it imports; here they meet the outside world.
-/
namespace TermRewriting.Main

open Program

/-- The time of day, in the form that log lines begin with. -/
def time : IO String := do
  let now ← Std.Time.Timestamp.now
  let moment := Std.Time.DateTime.ofTimestamp now Std.Time.TimeZone.ZoneRules.UTC
  return moment.format "uuuu-MM-dd'T'HH:mm:ss.SSSSSS'Z'"

/-- Writes an output at once. -/
def write : Output → IO Unit
  | .shown text => do
    let stdout ← IO.getStdout
    stdout.putStr text
    stdout.flush
  | .complained text => IO.eprint text
  | .logged line => do IO.eprintln (line.stamped (← time))

def fileError : IO.Error → FileError
  | .noFileOrDirectory _ _ _ => .notFound
  | .inappropriateType _ 20 _ => .notDirectory
  | .inappropriateType _ 21 _ => .isDirectory
  | .invalidArgument _ 36 _ => .nameTooLong
  | .invalidArgument _ code details => ⟨code.toNat, details⟩
  | .inappropriateType _ code details => ⟨code.toNat, details⟩
  | .permissionDenied _ code details => ⟨code.toNat, details⟩
  | e => ⟨0, toString e⟩

def attempt {α : Type} (action : IO α) : IO (Except FileError α) := do
  try
    return .ok (← action)
  catch e =>
    return .error (fileError e)

def save (s : Setup) (d : Dialogue) : IO Dialogue := do
  match s.toSave d with
  | none => return d
  | some (path, text) =>
    match ← attempt (IO.FS.writeFile path text) with
    | .ok () => return d.saved
    | .error e => do
      (s.log (notSaved path e)).forM write
      return d

/-- Takes the lines of standard input one by one. -/
partial def converse (s : Setup) (input : IO.FS.Stream) (d : Dialogue) : IO Unit := do
  s.prompt.forM write
  let raw ← input.getLine
  if raw.isEmpty then
    write (.shown farewell)
  else
    match d.hear (typedLine raw.toList) with
    | (d', none) => converse s input d'
    | (d', some turn) => do
      (s.tell turn).forM write
      converse s input (← save s d')

def start (s : Setup) : IO Unit := do
  write (.shown greeting)
  match s.options.history with
  | none => converse s (← IO.getStdin) (.initial .empty)
  | some path => do
    let (history, loading) := s.load path (← attempt (IO.FS.readFile path))
    loading.forM write
    converse s (← IO.getStdin) (.initial history)

end TermRewriting.Main

open TermRewriting in
def main (arguments : List String) : IO UInt32 := do
  match Request.ofArguments arguments with
  | .help => do
    Main.write (.shown usageText)
    return 0
  | .refuse e => do
    Main.write (.complained e.message)
    return 2
  | .run options => do
    let terminal := (← IO.getEnv "TERM").getD ""
    let asked := (← IO.getEnv "RUST_LOG").bind Filter.ofText?
    Main.start ⟨options, Program.prompts terminal, asked⟩
    return 0
