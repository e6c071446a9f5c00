/-!
# Link directives

The image of the machine is linked at a fixed address by a script, and sections that nothing uses
are dropped. Programs for other targets are linked as usual. `LinkScript.directives` lists what the
build is told, one directive a line.
-/

namespace FourRings.LinkScript

/-- The name of the script. -/
def fileName : String := "linker.ld"

/-- The path of a file in a directory. An empty directory is the current one. -/
def join (directory file : String) : String :=
  if directory.isEmpty || directory.toList.getLast? = some '/' then directory ++ file
  else directory ++ "/" ++ file

/-- The target that the image is built for. -/
structure Target where
  arch : String
  os : String
deriving DecidableEq, Repr

/-- The machine without an operating system. -/
def bare : Target := ⟨"x86", "none"⟩

/-- How the image is linked, with the script in the given directory. -/
def linkDirectives (directory : String) : List String :=
  ["cargo:rustc-link-arg-bins=-T" ++ join directory fileName,
    "cargo:rustc-link-arg-bins=--gc-sections"]

/-- When the directives have to be made again. -/
def rerunDirectives : List String :=
  ["cargo:rerun-if-changed=build.rs",
    "cargo:rerun-if-changed=" ++ fileName,
    "cargo:rerun-if-env-changed=CARGO_MANIFEST_DIR"]

/-- The directives for a target. -/
def directives (directory : String) (target : Target) : List String :=
  (if target = bare then linkDirectives directory else []) ++ rerunDirectives

end FourRings.LinkScript
