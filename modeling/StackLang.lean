import StackLang.CommandLine
import StackLang.Expr
import StackLang.Json.Writer
import StackLang.Main
import StackLang.Proofs.FirstFault
import StackLang.Proofs.Numeral
import StackLang.Proofs.Postfix
import StackLang.Proofs.StackMachine
import StackLang.Service.Basic
import StackLang.Tool.Scripted
import StackLang.Proofs.Lexing
import StackLang.Proofs.PowerLibrary
import StackLang.Proofs.Linking
import StackLang.Proofs.RunProgram
import StackLang.Proofs.CopyingTool
import StackLang.Proofs.Substitution
import StackLang.Proofs.TextIdentity
import StackLang.Proofs.Footprint
import StackLang.Proofs.StagedPaths
import StackLang.Proofs.Moves
import StackLang.Proofs.Cleanup
import StackLang.Proofs.Interleaving
import StackLang.Proofs.KeptLibrary
import StackLang.Proofs.ProgramRoutes
import StackLang.Proofs.Independence
import StackLang.Proofs.ReportedInputs
import StackLang.Proofs.Correspondence
import StackLang.Proofs.LeadingOptions
import StackLang.Proofs.ConsoleOutput
import StackLang.Proofs.Renaming
import StackLang.Proofs.SameButNames
import StackLang.Proofs.RenamedRuns
import StackLang.Proofs.FrontEnds
import StackLang.Proofs.Balance
import StackLang.Proofs.ClosedModule
import StackLang.Proofs.DepthTrace
import StackLang.Proofs.FailingStages
import StackLang.Proofs.KeptFiles
import StackLang.Proofs.ArgumentSplit
import StackLang.Proofs.InputText
import StackLang.Proofs.NormalLiterals
import StackLang.Proofs.Lifetimes
