import SceneFlow.CommandLine.Program

/-!
# Entry point

The program on the console of the operating system.
-/

namespace SceneFlow.CommandLine

/-- The fault that an error of the operating system stands for. -/
def faultOf : IO.Error → FileFault
  | .noFileOrDirectory _ _ _ => .notFound
  | .alreadyExists _ _ _ => .occupied
  | .invalidArgument _ 36 _ => .nameTooLong
  | .inappropriateType _ code _ => if code = 21 then .isFolder else .notFolder
  | error => .other (toString error)

/-- Run an action and turn its errors into faults. -/
def attempt {α : Type} (action : IO α) : IO (Except FileFault α) := do
  try
    return .ok (← action)
  catch error =>
    return .error (faultOf error)

/-- The console of the operating system. -/
def systemConsole : Console IO where
  read path := attempt (IO.FS.readFile path)
  makeFolder path := attempt (IO.FS.createDirAll path)
  write path text := attempt (IO.FS.writeFile path text)
  out text := IO.print text
  err text := IO.eprint text

end SceneFlow.CommandLine

/-- Do what the arguments ask for. -/
def main (arguments : List String) : IO UInt32 := do
  let code ← SceneFlow.CommandLine.run SceneFlow.CommandLine.systemConsole arguments
  return code.toUInt32
