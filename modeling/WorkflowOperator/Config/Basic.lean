/-!
# Configuration

What a workflow gets where it says nothing, where the registry client comes from, and how the
manager is laid out.
-/

namespace WorkflowOperator

/-- The images of a workflow that names none. -/
structure ImageDefaults where
  manager : String
  registry : String
deriving DecidableEq, Repr

/-- What a stage gets where it says nothing. -/
structure JobDefaults where
  nodes : UInt32
  coresPerTask : UInt32
  arch : String
  workdir : String
  gpuLabel : String
  pullPolicy : String
deriving DecidableEq, Repr

/-- The registry client that every stage installs. -/
structure ToolSource where
  version : String
  /-- The address that the address of a release starts with. -/
  baseUrl : String
deriving DecidableEq, Repr

/-- Where the manager finds its files and what it runs. -/
structure ManagerLayout where
  mountPath : String
  command : String
  /-- The name of the script that starts the manager, among its files. -/
  entrypoint : String
deriving DecidableEq, Repr

/-- The configuration of the operator. -/
structure Config where
  images : ImageDefaults
  jobs : JobDefaults
  tools : ToolSource
  manager : ManagerLayout
deriving DecidableEq, Repr

def standardPullPolicy : String := "IfNotPresent"

/-- The built-in images. -/
def ImageDefaults.standard : ImageDefaults where
  manager := "ghcr.io/converged-computing/state-machine-operator:manager"
  registry := "ghcr.io/oras-project/registry:latest"

def JobDefaults.standard : JobDefaults where
  nodes := 1
  coresPerTask := 3
  arch := "amd64"
  workdir := "/tmp/out"
  gpuLabel := "nvidia.com/gpu"
  pullPolicy := standardPullPolicy

def ToolSource.standard : ToolSource where
  version := "1.2.2"
  baseUrl := "https://github.com/oras-project/oras/releases/download"

def ManagerLayout.standard : ManagerLayout where
  mountPath := "/stagewright"
  command := "state-machine-manager"
  entrypoint := "entrypoint.sh"

def Config.standard : Config := ⟨.standard, .standard, .standard, .standard⟩

end WorkflowOperator
