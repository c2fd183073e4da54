import WorkflowOperator.Config.Basic
import WorkflowOperator.Job.Script
import WorkflowOperator.Manager.WorkflowFile

/-!
# The manager's entrypoint

The script that starts the manager in its container.
-/

namespace WorkflowOperator

open Template Text

def entrypointLines : List String :=
  ["#!/bin/bash",
    "",
    "cd \"" ++ slot "mount_path" ++ "\"",
    "",
    "echo \">> workflow     = " ++ slot "workflow_name" ++ "\"",
    "echo \">> namespace    = " ++ slot "namespace" ++ "\"",
    "echo \">> registry     = " ++ slot "registry" ++ "\"",
    "echo \">> stages       = " ++ slot "stages" ++ "\"",
    "ls",
    "",
    slot "manager_command" ++ " start --config-dir \"" ++ slot "mount_path" ++ "\" --registry \"" ++
      slot "registry" ++ "\" " ++ slot "plain_http_flag" ++ " " ++ slot "workflow_file"]

/-- The lines that keep the container after the manager has ended. -/
def keepAliveLines : List String := ["", "sleep infinity"]

namespace Workflow

def entrypointTemplate (w : Workflow) : Template :=
  .ofText (asLines (entrypointLines ++ Fragment.when w.spec.manager.interactive keepAliveLines))

def entrypointBindings (layout : ManagerLayout) (w : Workflow) : Except Fault Bindings := do
  let b := Bindings.empty
  let b ← b.insertShell "mount_path" layout.mountPath
  let b ← b.insertShell "workflow_name" w.name
  let b ← b.insertShell "namespace" w.inNamespace
  let b ← b.insertShell "registry" w.registryAddress
  let b ← b.insertShellWords "stages" w.spec.stageNames
  let b ← b.insert "manager_command" layout.command
  let b ← b.insert "workflow_file" workflowFileName
  b.insert "plain_http_flag" (plainHttpFlag w.spec.registry.usesPlainHttp)

def entrypoint (layout : ManagerLayout) (w : Workflow) : Except Fault String := do
  let b ← w.entrypointBindings layout
  w.entrypointTemplate.render b

end Workflow

end WorkflowOperator
