import FourRings.Log
import FourRings.MemoryMap
import FourRings.SelectorMap
import FourRings.Table.Basic

/-!
# The boot map

The descriptors that the machine starts with. Code and data segments are flat and end where the
region of the next inner ring starts. Task and local-table slots and call gates are placeholders:
their type and privilege are fixed here, their addresses are patched in later.
-/

namespace FourRings

namespace BootMap

open SelectorMap

/-- A flat segment of ring `r` that covers what `extent` reaches. -/
def flat (extent : Ring) (kind : Access) (r : Ring) : Descriptor :=
  .segment 0 (BitVec.ofNat 32 extent.pageLimit) (.ofKind kind r) .protected4K

/-- A system descriptor whose address is not known yet. -/
def placeholder (type : SystemType) (limit : Word) (r : Ring) : Descriptor :=
  .segment 0 limit (.ofSystem type r) ⟨0⟩

/-- A call gate into the code of ring `target` whose handler is not known yet. -/
def callGate (target r : Ring) (params : Byte) : Descriptor :=
  .gate target.codeSelector 0 r .callGate params

/-- The flat segments of a ring with the selectors of their slots. -/
def ringEntries (r : Ring) : List (Selector × Descriptor) :=
  [(r.codeSelector, flat r .codeKind r), (r.dataSelector, flat r .dataKind r)]

/-- The descriptors of the boot map with the selectors of their slots. -/
def entries : List (Selector × Descriptor) :=
  Ring.all.flatMap ringEntries ++
  [(coreTask, placeholder .tssAvailable 1024 .core),
    (Ring.core.ldtSelector, placeholder .ldt 1024 .core),
    (devsIrqTask, placeholder .tssAvailable 0 .devs),
    (Ring.devs.ldtSelector, placeholder .ldt 0 .devs),
    (devsSchedTask, placeholder .tssAvailable 0 .devs),
    (devsWindow, flat .core .dataKind .devs),
    (libsIrqTask, placeholder .tssAvailable 0 .libs),
    (Ring.libs.ldtSelector, placeholder .ldt 0 .libs),
    (libsSchedTask, placeholder .tssAvailable 0 .libs),
    (mainTask, placeholder .tssAvailable 0 .users),
    (Ring.users.ldtSelector, placeholder .ldt 0 .users),
    (nestedTask, placeholder .tssAvailable 0 .users),
    (usersWindow, flat .devs .dataKind .users),
    (vectorGate, callGate .core .devs 0),
    (coreTransmitGate, callGate .core .users 1),
    (printGate, callGate .core .users 1),
    (libsTransmitGate, callGate .libs .users 1),
    (terminalGate, callGate .devs .libs 3),
    (tableGate, callGate .core .users 0),
    (resumeGate, callGate .core .users 0)]

/-- What is logged once the map stands in a table whose limit is `limit`. -/
def installedRecord (limit : BitVec 16) : LogRecord :=
  { level := .debug
    target := LogTarget.table
    message :=
      s!"gdt: {entries.length} system descriptors installed, limit 0x{Text.hex limit.toNat}" }

end BootMap

namespace DescriptorTable

/-- Installs the boot map. In a table that is too small, the entries up to the first that does not
fit are installed. -/
def installBootMap (t : DescriptorTable) : Except TableError Unit × DescriptorTable :=
  t.setEach (BootMap.entries.map fun (s, d) => (s.index, d))

/-- What the installation of the boot map logs: a line if it succeeds. -/
def bootMapLog (result : Except TableError Unit) (t : DescriptorTable) : List LogRecord :=
  match result with
  | .ok () => [BootMap.installedRecord (t.register 0).limit]
  | .error _ => []

end DescriptorTable

end FourRings
