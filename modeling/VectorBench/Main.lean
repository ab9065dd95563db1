import VectorBench.CommandLine.Benchmark
import VectorBench.CommandLine.Check

/-!
# The program

Runs one of the two commands, named by the first argument, on the files, the streams and the clock
of the system.  Every request of a command becomes one action.
-/

namespace VectorBench.CommandLine

/-! ## Errors -/

/-- A system code without its sign: some requests report codes as negative words. -/
def codeMagnitude (code : UInt32) : UInt32 := if code < 0x80000000 then code else 0 - code

/-- The error of a system code, or of the system's words when the code says nothing here. -/
def errorOfCode (code : UInt32) (reason : String) : FileError :=
  match codeMagnitude code with
  | 2 => .noEntry
  | 16 => .busy
  | 17 => .alreadyExists
  | 20 => .notDirectory
  | 21 => .isDirectory
  | 36 => .nameTooLong
  | 39 => .notEmpty
  | code => .other (reason ++ " (os error " ++ toString code ++ ")")

def errorOfSystem : IO.Error → FileError
  | .noFileOrDirectory _ code reason => errorOfCode code reason
  | .alreadyExists _ code reason => errorOfCode code reason
  | .inappropriateType _ code reason => errorOfCode code reason
  | .invalidArgument _ code reason => errorOfCode code reason
  | .permissionDenied _ code reason => errorOfCode code reason
  | .resourceExhausted _ code reason => errorOfCode code reason
  | .resourceBusy code reason => errorOfCode code reason
  | .unsatisfiedConstraints code reason => errorOfCode code reason
  | .otherError code reason => errorOfCode code reason
  | e => .other (toString e)

def attempt {α : Type} (action : IO α) : IO (Except FileError α) := do
  match ← action.toBaseIO with
  | .ok value => return .ok value
  | .error e => return .error (errorOfSystem e)

/-! ## Actions -/

/-- Whether a path names a directory: every directory, and nothing else, has itself as an entry. -/
def namesDirectory (path : String) : IO Bool := do
  match ← attempt (IO.FS.createDir (path ++ "/.")) with
  | .error .alreadyExists => return true
  | _ => return false

def writeOpened (path : String) (mode : IO.FS.Mode) (bytes : Bytes) : IO Unit := do
  let file ← IO.FS.Handle.mk path mode
  file.write ⟨bytes.toArray⟩
  file.flush

def fileAction : (r : FileRequest) → IO r.Answer
  | .makeDir path => attempt (IO.FS.createDir path)
  | .isDir path => attempt (namesDirectory path)
  | .create path => attempt (writeOpened path .write [])
  | .append path bytes => attempt (writeOpened path .append bytes)
  | .sync path => attempt (writeOpened path .append [])
  | .rename source target => attempt (IO.FS.rename source target)
  | .remove path => attempt (IO.FS.removeFile path)
  | .read path => attempt do return (← IO.FS.readBinFile path).toList

def writeStream (stream : Stream) (text : String) : IO Unit := do
  let target ← match stream with
    | .out => IO.getStdout
    | .err => IO.getStderr
  target.putStr text
  target.flush

/-- The seconds since the clock's last reading. -/
def lapAction (clock : IO.Ref Nat) : IO Binary64 := do
  let now ← IO.monoNanosNow
  let before ← clock.swap now
  return .ofNat .double (now - before) / .ofNat .double 1000000000

def action (clock : IO.Ref Nat) : (r : Request) → IO r.Answer
  | .file request => fileAction request
  | .write stream text => attempt (writeStream stream text)
  | .lap => lapAction clock

/-! ## Entry -/

/-- The environment as far as options look at it. -/
def environmentOf (names : List String) : IO (String → Option String) := do
  let values ← names.mapM fun name => return (name, ← IO.getEnv name)
  return fun name => (values.lookup name).join

def execute (command : Command ExitStatus) : IO UInt32 := do
  let clock ← IO.mkRef (← IO.monoNanosNow)
  let status ← command.interpret (action clock)
  return status.code.toUInt32

end VectorBench.CommandLine

open VectorBench VectorBench.CommandLine

def main (arguments : List String) : IO UInt32 := do
  match arguments with
  | "ann-benchmark" :: rest =>
    let environment ← environmentOf (BenchmarkArguments.options.filterMap (·.environmentName?))
    execute (annBenchmark .stops .exhaustive environment rest)
  | "check-ann-regression" :: rest =>
    let environment ← environmentOf (CheckArguments.options.filterMap (·.environmentName?))
    execute (checkAnnRegression environment rest)
  | _ => execute (fail .misuse "usage: (ann-benchmark | check-ann-regression) [OPTIONS]")
