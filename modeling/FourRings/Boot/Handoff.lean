import FourRings.Paging.Error
import FourRings.Table.Error
import FourRings.Task.Build

/-!
# The hand-over from the boot loader

The loader leaves a magic number in a register. The core comes up only if it is there, and then sets
up its tables, paging and its own task. `InitError` says which of these went wrong.
-/

namespace FourRings

namespace Multiboot

/-- The number by which the loader knows the image. -/
def headerMagic : Word := 0x1BADB002

/-- What the image asks of the loader: aligned modules and a memory map. -/
def headerFlags : Word := 0x3

/-- The number by which the core knows the loader. -/
def loaderMagic : Word := 0x2BADB002

end Multiboot

/-- Why the core does not come up. -/
inductive InitError where
  | badMagic (magic : Word)
  | table (error : TableError)
  | paging (error : PagingError)
  | task (error : SetupError)
  /-- The processor is not in protected mode with paging on. -/
  | notProtected
deriving DecidableEq, Repr

namespace InitError

/-- What went wrong, without the particulars. -/
def description : InitError → String
  | .badMagic _ => "not loaded by a multiboot loader"
  | .table _ => "descriptor table setup failed"
  | .paging _ => "paging setup failed"
  | .task _ => "core task setup failed"
  | .notProtected => "CPU is not in paged protected mode"

def message (e : InitError) : String :=
  match e with
  | .badMagic magic => s!"{e.description}: 0x{Text.hexPad 8 magic.toNat}"
  | .table error => s!"{e.description}: {error.message}"
  | .paging error => s!"{e.description}: {error.message}"
  | .task error => s!"{e.description}: {error.message}"
  | .notProtected => e.description

end InitError

/-- Checks the number that the loader left. -/
def checkLoader (magic : Word) : Except InitError Unit :=
  ensure (magic = Multiboot.loaderMagic) (.badMagic magic)

end FourRings
