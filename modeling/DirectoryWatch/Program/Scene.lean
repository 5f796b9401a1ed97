import DirectoryWatch.Program
import DirectoryWatch.Service.Scene

/-!
# The program on a file tree

A run from the arguments to the end, on a tree that changes right after the watches are attached,
and on a clock that moves only while the run waits.
-/

namespace DirectoryWatch.Program

open Service (Scene)

/-- One step of a run on a scene. -/
def step (r : Run) (s : Scene) : Run × Scene :=
  let (r, service) := r.step s.timeline.service s.timeline.now
  (r, { s with timeline := { s.timeline with service } })

/-- The next moment at which a window or the time of the run is up. -/
def nextMoment (r : Run) (s : Scene) : Option Moment :=
  Moment.earliest? (s.timeline.deadline.toList ++ r.deadline.toList)

/-- The scene once a poll has something to find; none when it never will. -/
def awaitPoll (r : Run) (s : Scene) : Option Scene :=
  if s.timeline.service.queue.isEmpty ∧ s.timeline.service.isRunning = true then
    (nextMoment r s).map fun moment =>
      Scene.settle { s with timeline := s.timeline.reach moment }
  else some s

def goOn : Nat → Run → Scene → Run
  | 0, r, _ => r
  | steps + 1, r, s =>
    let s := s.settle
    match r.phase with
    | .done _ => r
    | .polling =>
      match awaitPoll r s with
      | none => r
      | some s =>
        let (r, s) := step r s
        goOn steps r s
    | _ =>
      let (r, s) := step r s
      goOn steps r s

/-- A poll with the looks around it for each window, for the time of the run and for the end of the
worker, and the steps of the end. -/
def mostSteps (s : Scene) : Nat :=
  3 * ((s.timeline.service.worker.map fun w => w.sessions.length).getD 0 + 4) + 5

/-- How the program ends on a tree that changes while it watches; none when it never ends. -/
def outcome? (tree : FileTree) (now : Moment) (args : List CommandLine.Argument)
    (changes : List FileTree.Action) : Option Outcome :=
  match Invocation.ofArguments tree.disk args with
  | .answered outcome => some outcome
  | .watching line config =>
    let (ending, s) := (Scene.set tree (.make line.paths config) now).start
    match ending with
    | .error e => some (.failed [] (.starting e))
    | .ok () =>
      match Run.start line now with
      | .error p => some (.panicked p)
      | .ok r =>
        let s := s.changeAll changes
        (goOn (mostSteps s) r s).outcome?

end DirectoryWatch.Program
