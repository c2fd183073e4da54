import WorkflowOperator.Job.Document
import WorkflowOperator.Manager.Entrypoint

/-!
# The manager's files

All that the manager gets: a document for every stage, the workflow file and the entrypoint.  If one of
them cannot be made there are none.
-/

namespace WorkflowOperator

open Template

namespace Workflow

/-- The documents of stages under their file names, from a place among the stages on. -/
def jobFiles (c : Config) (w : Workflow) (index : Nat) :
    List JobStep → Except Fault (List (String × String))
  | [] => .ok []
  | j :: rest => do
    let assembled ← w.assemble c j
    let more ← w.jobFiles c (index + 1) rest
    return (jobFileName index, assembled.document) :: more

/-- The manager's files by their names.  Of two files with one name, which only the configured name
of the entrypoint can bring about, the later counts. -/
def managerFiles (c : Config) (w : Workflow) : Except Fault (TextMap String) := do
  let documents ← w.jobFiles c 0 w.spec.jobs
  let entrypoint ← w.entrypoint c.manager
  return .ofList <|
    documents ++ [(workflowFileName, w.file), (c.manager.entrypoint, entrypoint)]

end Workflow

end WorkflowOperator
