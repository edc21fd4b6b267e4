/-!
The parts of the program under whose names it logs, as filters address them.
-/

set_option autoImplicit false

namespace FenceLint.Log.Target

/-- Looking for fenced blocks. -/
def extractor : String := "mermaid_check::core::extractor"
/-- Judging one block. -/
def validator : String := "mermaid_check::core::validator"
/-- Keeping block files. -/
def artifacts : String := "mermaid_check::core::artifacts"
/-- Checking documents. -/
def checker : String := "mermaid_check::plugins::orchestrator"
/-- The diagram engine as a whole. -/
def engine : String := "mermaid_check::plugins::mermaid_js"
/-- The conversation with a harness process. -/
def session : String := "mermaid_check::plugins::mermaid_js::session"
/-- Finding the packages of the engine. -/
def resolver : String := "mermaid_check::plugins::mermaid_js::resolver"
/-- The command line. -/
def commandLine : String := "mermaid_check::cli"

end FenceLint.Log.Target
