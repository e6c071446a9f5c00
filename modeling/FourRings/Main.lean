import FourRings.LinkScript

/-!
# The command line

Prints the link directives for the directory and the target that the environment names. What the
environment does not name is empty.
-/

namespace FourRings

/-- The value of a variable of the environment. -/
def environment (name : String) : IO String :=
  return (← IO.getEnv name).getD ""

end FourRings

def main : IO Unit := do
  let directory ← FourRings.environment "CARGO_MANIFEST_DIR"
  let arch ← FourRings.environment "CARGO_CFG_TARGET_ARCH"
  let os ← FourRings.environment "CARGO_CFG_TARGET_OS"
  (FourRings.LinkScript.directives directory ⟨arch, os⟩).forM IO.println
