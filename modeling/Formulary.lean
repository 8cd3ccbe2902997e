import Formulary.Calculus.Expression
import Formulary.Files.Machine
import Formulary.Logic.Formula
import Formulary.Main
import Formulary.Proofs.Logic.Grammar
import Formulary.Proofs.Logic.Reordering
import Formulary.Proofs.Logic.Assembly
import Formulary.Proofs.Logic.Tables
import Formulary.Proofs.Logic.OpenPhrases
import Formulary.Proofs.Logic.Malformed
import Formulary.Proofs.Logic.Comparison
import Formulary.Proofs.Logic.TokenTexts
import Formulary.Proofs.Logic.MissingOperands
import Formulary.Proofs.Logic.Replacement
import Formulary.Proofs.Logic.Parentheses
import Formulary.Proofs.Logic.ThirdLetter
import Formulary.Proofs.Calculus.Grammar
import Formulary.Proofs.Calculus.Assembly
import Formulary.Proofs.Calculus.Reordering
import Formulary.Proofs.Calculus.OpenPhrases
import Formulary.Proofs.Calculus.Parsing
import Formulary.Proofs.Calculus.FirstFault
import Formulary.Proofs.Calculus.Cutting
import Formulary.Proofs.Calculus.LexemeEnds
import Formulary.Proofs.Calculus.Respelling
import Formulary.Proofs.Session.LastAnalysis
import Formulary.Proofs.Session.Replay
import Formulary.Proofs.Script.Rendering
import Formulary.Proofs.Sets.Algebra
import Formulary.Proofs.Sets.RoundTrip
import Formulary.Proofs.History.NewestFirst
import Formulary.Proofs.History.Survival
import Formulary.Proofs.Files.Stops
import Formulary.Proofs.Json.Continuation
import Formulary.Proofs.History.BrokenWrites
import Formulary.Proofs.Script.Lines
import Formulary.Proofs.Session.ScriptLines
import Formulary.Proofs.Script.Operands
import Formulary.Proofs.Script.SetReplay
import Formulary.Proofs.Session.FailedAnalysis
import Formulary.Proofs.Files.Records
import Formulary.Proofs.Session.Messages
import Formulary.Proofs.Session.LooseTexts
import Formulary.Proofs.Session.JournalLines
import Formulary.Proofs.Session.JournalFile
import Formulary.Proofs.Decimal.Nearest
import Formulary.Proofs.Decimal.Unpacked
import Formulary.Proofs.Decimal.Mantissa
import Formulary.Proofs.Decimal.Arithmetic
import Formulary.Proofs.Calculus.Finiteness
import Formulary.Proofs.Session.AnalysisExport
import Formulary.Proofs.Session.Guards
import Formulary.Proofs.Session.Accounts
import Formulary.Proofs.Json.NumberTexts
import Formulary.Proofs.Json.Printing
import Formulary.Proofs.Session.ReplyLines
import Formulary.Proofs.Sets.Complements
import Formulary.Proofs.Text.Lowercase
import Formulary.Proofs.History.Search
import Formulary.Proofs.Json.FloatTexts
import Formulary.Proofs.Session.Recovery
import Formulary.Proofs.Decimal.Order
import Formulary.Proofs.Decimal.Absorption
import Formulary.Proofs.Calculus.Windows
import Formulary.Proofs.Calculus.Trapezoids
import Formulary.Proofs.Logic.OutputOrder
import Formulary.Proofs.Script.StackMachines
import Formulary.Proofs.Session.SetDecoding
