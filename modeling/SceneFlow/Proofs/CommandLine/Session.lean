import Mathlib
import SceneFlow.CommandLine.Program
import SceneFlow.CommandLine.Session
import SceneFlow.Proofs.CommandLine.Workspace

/-!
# What tasks do in a session

A task that is performed in a session ends well or fails, and leaves the session that it has made of
it. To read a document changes nothing. To write one makes folders on the way to it and then puts it
in its place, unless one of the two fails.

## Main definitions

* `Session.perform`: how a task ends in a session, and the session that it leaves.
* `Session.Finds`: a task changes nothing and gives what fits a predicate.
* `Failure.isEarly`, `Failure.isOfFile`: failures before anything is written, and to write.

## Main results

* `Session.perform_bind`: a task goes on where the one before it has ended well.
* `Session.finds_readNetwork`, `Session.finds_readOverrides`: what is read from files.
* `Session.perform_writeJson`: what becomes of a document that is written.
-/

namespace SceneFlow.CommandLine

/-- Whether a command fails because it cannot write a file. -/
def Failure.isOfFile : Failure → Bool
  | noFolder _ _ | unwritten _ _ => true
  | _ => false

/-- Whether a command fails before it writes any file. -/
def Failure.isEarly : Failure → Bool
  | noFolder _ _ | unwritten _ _ | variants _ _ => false
  | _ => true

namespace Session

variable {α β : Type} {session : Session}

/-- How a task ends in a session, and the session that it leaves. -/
def perform (session : Session) (task : Task (StateM Session) α) : Except Failure α × Session :=
  task.run.run session

/-- A task goes on where the one before it has ended well. -/
theorem perform_bind (task : Task (StateM Session) α) (next : α → Task (StateM Session) β) :
    session.perform (task >>= next) =
      match session.perform task with
      | (.ok a, later) => later.perform (next a)
      | (.error failure, later) => (.error failure, later) := by
  simp only [perform, ExceptT.run_bind, StateT.run_bind]
  rcases task.run.run session with ⟨_ | _, later⟩ <;> rfl

theorem perform_bind_of_ok {task : Task (StateM Session) α} {a : α} {later : Session}
    (h : session.perform task = (.ok a, later)) (next : α → Task (StateM Session) β) :
    session.perform (task >>= next) = later.perform (next a) := by
  rw [perform_bind, h]

theorem perform_bind_of_error {task : Task (StateM Session) α} {failure : Failure} {later : Session}
    (h : session.perform task = (.error failure, later)) (next : α → Task (StateM Session) β) :
    session.perform (task >>= next) = (.error failure, later) := by
  rw [perform_bind, h]

theorem perform_pure (a : α) : session.perform (pure a) = (.ok a, session) :=
  rfl

/-- What is done on the console cannot fail, though it may tell of a fault. -/
theorem perform_lift (action : StateM Session α) :
    session.perform (liftM action) = (.ok (action.run session).1, (action.run session).2) :=
  rfl

/-! ### What is read -/

/-- A task leaves a session as it is. If it ends well, what it gives fits a predicate; if not, it is
too early for any file to have been written. -/
def Finds (session : Session) (task : Task (StateM Session) α) (p : α → Prop) : Prop :=
  (∃ a, session.perform task = (.ok a, session) ∧ p a) ∨
    ∃ failure, session.perform task = (.error failure, session) ∧ failure.isEarly = true

theorem Finds.pure {p : α → Prop} {a : α} (h : p a) : session.Finds (pure a) p :=
  .inl ⟨a, rfl, h⟩

theorem Finds.throw {failure : Failure} (h : failure.isEarly = true) (p : α → Prop) :
    session.Finds (throw failure) p :=
  .inr ⟨failure, rfl, h⟩

theorem Finds.bind {task : Task (StateM Session) α} {next : α → Task (StateM Session) β}
    {p : α → Prop} {q : β → Prop} (h : session.Finds task p)
    (hnext : ∀ a, p a → session.Finds (next a) q) : session.Finds (task >>= next) q := by
  rcases h with ⟨a, hperform, ha⟩ | ⟨failure, hperform, hearly⟩
  · rw [Finds, perform_bind_of_ok hperform next]
    exact hnext a ha
  · exact .inr ⟨failure, perform_bind_of_error hperform next, hearly⟩

variable (session) (path : String)

theorem finds_readText (document : Document) : session.Finds (readText console document path)
    fun text => session.workspace.read path = .ok text := by
  have hread : session.Finds (liftM (console.read path)) fun result =>
      session.workspace.read path = result :=
    .inl ⟨_, rfl, rfl⟩
  refine hread.bind fun result hresult => ?_
  split
  · exact .pure hresult
  · exact .throw rfl _
  · exact .throw rfl _

theorem finds_readOverrides : session.Finds (readOverrides console path) fun overrides =>
    ∃ text, session.workspace.read path = .ok text ∧ Overrides.parse text = .ok overrides := by
  refine (session.finds_readText path .overrides).bind fun text htext => ?_
  split
  · rename_i overrides hparse
    exact .pure ⟨text, htext, hparse⟩
  · exact .throw rfl _

theorem finds_readGraph : session.Finds (readGraph console path) fun graph =>
    ∃ text, session.workspace.read path = .ok text ∧ Graph.parse text = .ok graph := by
  refine (session.finds_readText path .graph).bind fun text htext => ?_
  split
  · rename_i graph hparse
    exact .pure ⟨text, htext, hparse⟩
  · exact .throw rfl _

theorem finds_readNetwork : session.Finds (readNetwork console path) fun net =>
    ∃ text graph, session.workspace.read path = .ok text ∧ Graph.parse text = .ok graph ∧
      Network.ofGraph graph = .ok net := by
  refine (session.finds_readGraph path).bind fun graph hgraph => ?_
  obtain ⟨text, htext, hparse⟩ := hgraph
  split
  · rename_i net hnet
    exact .pure ⟨text, graph, htext, hparse, hnet⟩
  · exact .throw rfl _

/-! ### What is written -/

variable (value : Json)

/-- A text that is written stands in its place. -/
theorem perform_write (text : String) :
    let task : Task (StateM Session) Unit := do
      match ← (console.write path text : StateM Session (Except FileFault Unit)) with
      | .ok () => pure ()
      | .error fault => throw (.unwritten path fault)
    (∃ later, session.workspace.write path text = .ok later ∧
      session.perform task = (.ok (), { session with workspace := later })) ∨
    ∃ failure, failure.isOfFile = true ∧ session.perform task = (.error failure, session) := by
  dsimp only
  rw [perform_bind, perform_lift]
  cases hresult : session.workspace.write path text with
  | ok later =>
    refine .inl ⟨later, rfl, ?_⟩
    simp only [console, change, StateT.run, hresult]
    rfl
  | error fault =>
    refine .inr ⟨.unwritten path fault, rfl, ?_⟩
    simp only [console, change, StateT.run, hresult]
    rfl

/-- A document that is written stands in its place, behind folders that have been made for it. If it
is not, some of the folders may have been made. -/
theorem perform_writeJson : ∃ middle, session.workspace.AddsFolders middle ∧
    ((∃ later, middle.write path (fileText value) = .ok later ∧
      session.perform (writeJson console path value) =
        (.ok (), { session with workspace := later })) ∨
    ∃ failure, failure.isOfFile = true ∧ session.perform (writeJson console path value) =
      (.error failure, { session with workspace := middle })) := by
  have hstays := Workspace.AddsFolders.refl session.workspace
  rw [writeJson]
  dsimp only
  split
  · rw [perform_bind, perform_lift]
    cases hresult : session.workspace.makeFolder (parentPath path) with
    | ok middle =>
      refine ⟨middle, Workspace.addsFolders_of_makeFolder hresult, ?_⟩
      simp only [console, change, StateT.run, hresult]
      exact perform_write { session with workspace := middle } path (fileText value)
    | error fault =>
      refine ⟨_, hstays, .inr ⟨.noFolder (parentPath path) fault, rfl, ?_⟩⟩
      simp only [console, change, StateT.run, hresult]
      rfl
  · exact ⟨_, hstays, session.perform_write path (fileText value)⟩

end Session

end SceneFlow.CommandLine
