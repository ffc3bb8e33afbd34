import RegisterMachine.CommandLine.Calculator
import RegisterMachine.CommandLine.Workbench
import RegisterMachine.Proofs.Concatenation
import RegisterMachine.Proofs.Construction
import RegisterMachine.Proofs.DebugTrace
import RegisterMachine.Proofs.Diagnosis
import RegisterMachine.Proofs.Driving
import RegisterMachine.Proofs.ForwardJumps
import RegisterMachine.Proofs.Heron
import RegisterMachine.Proofs.IndependentRuns
import RegisterMachine.Proofs.JumpTargets
import RegisterMachine.Proofs.LabelledJumps
import RegisterMachine.Proofs.Language
import RegisterMachine.Proofs.Layout
import RegisterMachine.Proofs.Listing
import RegisterMachine.Proofs.Number.DashedDigits
import RegisterMachine.Proofs.Number.Fewest
import RegisterMachine.Proofs.Number.Quotient
import RegisterMachine.Proofs.OperandKinds
import RegisterMachine.Proofs.Phases
import RegisterMachine.Proofs.PrintedNumbers
import RegisterMachine.Proofs.Reachable
import RegisterMachine.Proofs.Refusal
import RegisterMachine.Proofs.RegisterItems
import RegisterMachine.Proofs.Rejection
import RegisterMachine.Proofs.RowShape
import RegisterMachine.Proofs.Settings
import RegisterMachine.Proofs.StepLimit
import RegisterMachine.Proofs.SuffixSemantics
import RegisterMachine.Proofs.UnreadRegisters
