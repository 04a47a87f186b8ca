import SceneFlow.CommandLine.Workspace

/-!
# Sessions

A session is a run of the program in a workspace. It serves as a console and keeps what the
program writes.
-/

namespace SceneFlow.CommandLine

/-- A run of the program in a workspace. -/
structure Session where
  /-- The workspace. -/
  workspace : Workspace
  /-- What has been written to the standard output. -/
  out : String
  /-- What has been written to the stream for errors. -/
  err : String

namespace Session

/-- The beginning of a run. -/
def start (workspace : Workspace) : Session :=
  ⟨workspace, "", ""⟩

/-- Keep the workspace that a change leads to, if it does not fail. -/
def change (f : Workspace → Except FileFault Workspace) :
    StateM Session (Except FileFault Unit) := fun session =>
  match f session.workspace with
  | .ok workspace => (.ok (), { session with workspace })
  | .error fault => (.error fault, session)

/-- The console of a session. -/
def console : Console (StateM Session) where
  read path := fun session => (session.workspace.read path, session)
  makeFolder path := change fun ws => ws.makeFolder path
  write path text := change fun ws => ws.write path text
  out text := fun session => ((), { session with out := session.out ++ text })
  err text := fun session => ((), { session with err := session.err ++ text })

end Session

end SceneFlow.CommandLine
