import FourRings.Boot.Handoff
import FourRings.Boot.Sequencer
import FourRings.Boot.Stage
import FourRings.Check
import FourRings.Core.Basic
import FourRings.Core.BringUp
import FourRings.Core.Install
import FourRings.Descriptor.Access
import FourRings.Descriptor.Basic
import FourRings.Descriptor.Lemmas
import FourRings.Descriptor.Text
import FourRings.Gate.Error
import FourRings.Gate.Memory
import FourRings.Gate.Policy
import FourRings.Gate.Request
import FourRings.Gate.Serve
import FourRings.Gate.Strict
import FourRings.Gate.Vault
import FourRings.Interrupt.Exception
import FourRings.Interrupt.Lines
import FourRings.Interrupt.Report
import FourRings.Interrupt.Table
import FourRings.Keyboard
import FourRings.LinkScript
import FourRings.Log
import FourRings.Main
import FourRings.MemoryMap
import FourRings.Paging.Error
import FourRings.Paging.Map
import FourRings.Paging.Strict
import FourRings.Paging.Walk
import FourRings.ProcessorMode
import FourRings.Proofs.Admission
import FourRings.Proofs.BootOrder
import FourRings.Proofs.BringUp
import FourRings.Proofs.BuiltTasks
import FourRings.Proofs.Confinement
import FourRings.Proofs.ConsoleRuns
import FourRings.Proofs.Deposits
import FourRings.Proofs.Effects
import FourRings.Proofs.Encoding
import FourRings.Proofs.ExactEdits
import FourRings.Proofs.Faults
import FourRings.Proofs.Fields
import FourRings.Proofs.GateTargets
import FourRings.Proofs.Handover
import FourRings.Proofs.IdentityMap
import FourRings.Proofs.Installs
import FourRings.Proofs.Integrity
import FourRings.Proofs.Journal
import FourRings.Proofs.Overwrites
import FourRings.Proofs.PageEdits
import FourRings.Proofs.PatchRuns
import FourRings.Proofs.Patches
import FourRings.Proofs.Placement
import FourRings.Proofs.Privilege
import FourRings.Proofs.Refusals
import FourRings.Proofs.Registers
import FourRings.Proofs.Registration
import FourRings.Proofs.Resumes
import FourRings.Proofs.Run
import FourRings.Proofs.RunnableTasks
import FourRings.Proofs.RunningTasks
import FourRings.Proofs.SafeTasks
import FourRings.Proofs.Screen
import FourRings.Proofs.Scrolling
import FourRings.Proofs.Served
import FourRings.Proofs.Shelter
import FourRings.Proofs.Slots
import FourRings.Proofs.StackLayout
import FourRings.Proofs.StateSlot
import FourRings.Proofs.Vectors
import FourRings.Ring
import FourRings.Screen.Color
import FourRings.Screen.Console
import FourRings.Screen.Print
import FourRings.Screen.Terminal
import FourRings.Selector
import FourRings.SelectorMap
import FourRings.Strict
import FourRings.Table.Basic
import FourRings.Table.BootMap
import FourRings.Table.Error
import FourRings.Task.Block
import FourRings.Task.Build
import FourRings.Task.Stacks
import FourRings.Task.State
import FourRings.Text.Hex
import FourRings.Text.Utf8
