import FenceLint.Duration

/-!
Where the engine is to look for Node.js and its packages, and how long it may take to start.
-/

set_option autoImplicit false

namespace FenceLint.Engine

/-- The environment variable that names the Node.js binary. -/
def nodeVariable : String := "MERMAID_CHECK_NODE"

/-- The environment variable that names the directory of packages. -/
def packagesVariable : String := "MERMAID_CHECK_NODE_MODULES"

/-- The settings of the engine. -/
structure Config where
  /-- The Node.js binary; without one it is looked for on the search path. -/
  node? : Option String
  /-- A directory of packages to try before all others. -/
  packages? : Option String
  /-- How long the engine may take to get ready. -/
  startupLimit : Duration
  deriving DecidableEq, Repr

namespace Config

/-- Nothing configured, and half a minute to start. -/
def default : Config := ⟨none, none, .ofMillis 30000⟩

/-- The settings that environment variables make; their values are taken as they are. -/
def ofVariables (value? : String → Option String) : Config :=
  { default with node? := value? nodeVariable, packages? := value? packagesVariable }

/-- The settings with these in place of what was configured before. -/
def override (c : Config) (node? packages? : Option String) : Config :=
  { c with
    node? := node?.orElse fun _ ↦ c.node?
    packages? := packages?.orElse fun _ ↦ c.packages? }

end Config

end FenceLint.Engine
