import FourRings.Interrupt.Table

/-!
# Exceptions

The exceptions that the processor raises at the first 32 vectors, with the words that describe each
in reports.
-/

namespace FourRings

inductive ExceptionClass where
  | fault
  | trap
  | interrupt
  | abort
  | reserved
deriving DecidableEq, Repr

def ExceptionClass.label : ExceptionClass → String
  | .fault => "FAULT"
  | .trap => "TRAP"
  | .interrupt => "INTERRUPT"
  | .abort => "ABORT"
  | .reserved => "RESERVED"

/-- What is known of an exception. -/
structure ExceptionEntry where
  kind : ExceptionClass
  mnemonic : Option String
  name : String
  description : Option String
deriving DecidableEq, Repr

namespace ExceptionEntry

/-- An exception with a mnemonic. -/
def known (kind : ExceptionClass) (mnemonic name description : String) : ExceptionEntry :=
  ⟨kind, some mnemonic, name, some description⟩

/-- A vector without an exception. -/
def reserved : ExceptionEntry := ⟨.reserved, none, "Reserved", none⟩

/-- The exceptions that have a meaning, by vector. -/
def named : List ExceptionEntry :=
  [known .fault "#DE" "Divide Error" "Caused by DIV or IDIV instruction division by zero.",
    known .trap "#DB" "Debug Exception"
      "Single-step, data breakpoint, or debug register trigger.",
    known .interrupt "NMI" "Non-Maskable Interrupt" "Asynchronous hardware-triggered interrupt.",
    known .trap "#BP" "Breakpoint" "Triggered by the INT3 instruction for debugging.",
    known .trap "#OF" "Overflow" "Caused by INTO instruction when OF flag set.",
    known .fault "#BR" "BOUND Range Exceeded" "BOUND instruction detected index outside bounds.",
    known .fault "#UD" "Invalid Opcode" "Processor detected undefined or illegal instruction.",
    known .fault "#NM" "Device Not Available" "FPU unavailable or TS flag set in CR0.",
    known .abort "#DF" "Double Fault" "Exception occurred during handling of another exception.",
    ⟨.fault, none, "Coprocessor Segment Overrun",
      some "(Floating-point instruction) Legacy 286 error, ignored on modern CPUs."⟩,
    known .fault "#TS" "Invalid TSS" "Task State Segment access or limit violation.",
    known .fault "#NP" "Segment Not Present" "Segment present flag (P) cleared in descriptor.",
    known .fault "#SS" "Stack Segment Fault" "Stack selector or segment limit invalid.",
    known .fault "#GP" "General Protection Fault"
      "Violation of segment descriptor privilege or limit.",
    known .fault "#PF" "Page Fault" "Page not present or protection violation detected.",
    { reserved with description := some "Intel reserved exception vector." },
    known .fault "#MF" "x87 FPU Floating-Point Error"
      "Numeric overflow, underflow, or precision problem.",
    known .fault "#AC" "Alignment Check" "Unaligned memory access (only in Ring 3).",
    known .abort "#MC" "Machine Check" "Hardware-detected internal CPU error.",
    known .fault "#XM" "SIMD Floating-Point Exception" "Numeric error in SSE/AVX operation.",
    known .fault "#VE" "Virtualization Exception" "VMX-root violation in virtualized environment.",
    known .fault "#CP" "Control Protection Exception" "Control-flow enforcement (CET) violation."]

/-- What is known of the exception at a vector. Vectors past the exceptions have none. -/
def ofVector? (vector : Nat) : Option ExceptionEntry :=
  if vector < exceptionCount then some (named[vector]?.getD reserved) else none

end ExceptionEntry

/-- Whether the processor pushes an error code with the exception. -/
def HasErrorCode (vector : Nat) : Prop := vector ∈ [8, 10, 11, 12, 13, 14, 17, 21, 29, 30]

instance (vector : Nat) : Decidable (HasErrorCode vector) :=
  inferInstanceAs (Decidable (vector ∈ [8, 10, 11, 12, 13, 14, 17, 21, 29, 30]))

/-- The state in which an exception finds the processor. -/
structure ExceptionRecord where
  vector : Word := 0
  errorCode : Word := 0
  eip : Word := 0
  cs : Word := 0
  eflags : Word := 0
deriving DecidableEq, Repr

end FourRings
