import WorkflowOperator.Template.Basic
import WorkflowOperator.Text.Lines

/-!
# Fragments of stage scripts

The script of a stage is made of fragments: one that says who the job is and enters its directory,
one that installs the registry client, one that pulls the result of an earlier stage, the commands
of the stage itself, and one that pushes their result.  A fragment has no conditionals; what is
optional is left out when the script is composed.
-/

namespace WorkflowOperator

open Template Text

/-- Which numbers the preamble of a script tells. -/
structure Knobs where
  coresPerTask : Bool
  nodes : Bool
  tasks : Bool
deriving DecidableEq, Repr

/-- A fragment of a stage's script. -/
inductive Fragment
  /-- Says who the job is and with what it runs, and enters its directory. -/
  | preamble (knobs : Knobs)
  /-- Installs the registry client. -/
  | installTool
  /-- Checks that the artifact is listed and pulls it. -/
  | pullArtifact
  /-- The commands of the stage. -/
  | payload (script : String)
  /-- Pushes the result if the commands succeeded.  It asks for their status first of all, so it must
  directly follow them. -/
  | pushArtifact
deriving DecidableEq, Repr

namespace Fragment

def when (b : Bool) {α : Type} (l : List α) : List α := if b then l else []

def bindingLines (k : Knobs) : List String :=
  ["", "jobid=\"" ++ slot "jobid" ++ "\"",
    "outpath=\"" ++ slot "outpath" ++ "\"",
    "registry=\"" ++ slot "registry" ++ "\""] ++
  when k.coresPerTask ["cores_per_task=" ++ slot "cores_per_task"] ++
  when k.nodes ["nodes=" ++ slot "nodes"] ++
  when k.tasks ["tasks=" ++ slot "tasks"]

def bannerLines (k : Knobs) : List String :=
  ["", "echo \">> jobid        = $jobid\"",
    "echo \">> outpath      = $outpath\"",
    "echo \">> registry     = $registry\"",
    "echo \">> hostname     = \"$(hostname)"] ++
  when k.coresPerTask ["echo \">> cores/task   = $cores_per_task\""] ++
  when k.nodes ["echo \">> nodes        = $nodes\""] ++
  when k.tasks ["echo \">> tasks        = $tasks\""]

def directoryLines : List String := ["", "mkdir -p -v $outpath; cd $outpath"]

def installLines : List String :=
  ["", "# Install oras",
    "cd /tmp",
    "VERSION=\"" ++ slot "tool_version" ++ "\"",
    "curl -LO \"" ++ slot "tool_base_url" ++
      "/v$\x7bVERSION\x7d/oras_$\x7bVERSION\x7d_linux_" ++ slot "arch" ++ ".tar.gz\"",
    "mkdir -p oras-install/",
    "tar -zxf oras_$\x7bVERSION\x7d_*.tar.gz -C oras-install/",
    "mv oras-install/oras /usr/local/bin/ || sudo mv oras-install/oras /usr/local/bin/",
    "rm -rf oras_$\x7bVERSION\x7d_*.tar.gz oras-install/",
    "cd -",
    ""]

def pullLines : List String :=
  ["", "echo \"Looking for $jobid with oras repo list\"",
    "if ! oras repo list $registry " ++ slot "plain_http_flag" ++
      " | grep -q $\x7bjobid\x7d; then",
    "    echo \"Artifact $registry/$\x7bjobid\x7d is not in the registry\"",
    "    exit 1",
    "fi",
    "echo \"Pulling oras artifact to $outpath\"",
    "oras pull $registry/$\x7bjobid\x7d:" ++ slot "pull_tag" ++ " " ++ slot "plain_http_flag"]

def pushLines : List String :=
  ["", "retval=$?",
    "if [ $retval -eq 0 ];",
    "  then",
    "    echo \"Job was successful, pushing result to $registry/$\x7bjobid\x7d:" ++
      slot "push_tag" ++ "\"",
    "    cd $outpath",
    "    oras push " ++ slot "plain_http_flag" ++ " $registry/$\x7bjobid\x7d:" ++
      slot "push_tag" ++ " .",
    "  else",
    "    echo \"Job was not successful\"",
    "    exit 1",
    "fi"]

def text : Fragment → String
  | preamble k => asLines (bindingLines k ++ bannerLines k ++ directoryLines)
  | installTool => asLines installLines
  | pullArtifact => asLines pullLines
  | payload script => terminated script
  | pushArtifact => asLines pushLines

/-- The placeholders that a fragment brings with it.  The payload brings none; those that its author
wrote are filled in from the same values. -/
def declared : Fragment → List String
  | preamble k => ["jobid", "outpath", "registry"] ++ when k.coresPerTask ["cores_per_task"] ++
      when k.nodes ["nodes"] ++ when k.tasks ["tasks"]
  | installTool => ["tool_version", "tool_base_url", "arch"]
  | pullArtifact => ["plain_http_flag", "pull_tag"]
  | payload _ => []
  | pushArtifact => ["push_tag", "plain_http_flag"]

def compose (fragments : List Fragment) : String := String.join (fragments.map text)

end Fragment

end WorkflowOperator
