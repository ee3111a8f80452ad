import Stylesheet.Command.Sources

/-!
# The program

Reads the files that a build needs, plans the build, and prints or saves what it says.
-/

namespace Stylesheet

/-- The cause of a failure of the system. -/
def fileError : IO.Error → FileError
  | .noFileOrDirectory _ _ _ => .notFound
  | .inappropriateType _ code details => ofCode code.toNat details
  | .resourceExhausted _ code details => ofCode code.toNat details
  | .invalidArgument _ code details => ofCode code.toNat details
  | .otherError code details => ofCode code.toNat details
  | e => .other (toString e)
where
  ofCode (code : Nat) (details : String) : FileError :=
    if code = 20 then .notDirectory
    else if code = 21 then .isDirectory
    else if code = 36 then .nameTooLong
    else .other details

def readText (path : String) : IO (Except FileError String) := do
  try
    match String.fromUTF8? (← IO.FS.readBinFile path) with
    | some text => return .ok text
    | none => return .error .notText
  catch e => return .error (fileError e)

/-- Reads files until a build needs no more. -/
partial def gather (input : String) (o : BuildOptions) (s : Sources) : IO Sources := do
  match missingFiles s input o with
  | [] => return s
  | paths =>
    let mut s := s
    for path in paths do
      s := s.insert path (← readText path)
    gather input o s

def report (r : Report) : IO UInt32 := do
  IO.print r.stdout
  IO.eprint r.stderr
  return r.exitCode.toUInt32

def runMain (args : List String) : IO UInt32 := do
  let sources ← match Request.read? args with
    | some (.build input o) => gather input o .empty
    | _ => pure .empty
  match Plan.ofArguments sources.read args with
  | .refuse => report { exitCode := 2, stderr := usage }
  | .help => report { stdout := usage }
  | .fail f => report f.report
  | .print css => report { stdout := css ++ "\n" }
  | .save path css =>
    try
      IO.FS.writeFile path css
      report {}
    catch e => report (Failure.ofWrite path (fileError e)).report

end Stylesheet

def main (args : List String) : IO UInt32 := Stylesheet.runMain args
