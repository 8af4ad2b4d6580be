import ScriptOrder.Main
import ScriptOrder.Proofs.Idempotence
import ScriptOrder.Proofs.Partition
import ScriptOrder.Proofs.Ownership
import ScriptOrder.Proofs.Places
import ScriptOrder.Proofs.SameReading
import ScriptOrder.Proofs.Exchange
import ScriptOrder.Proofs.Spacing
import ScriptOrder.Proofs.Modes
import ScriptOrder.Proofs.ConvertedSheet
import ScriptOrder.Proofs.Positions
import ScriptOrder.Proofs.Reconversion
import ScriptOrder.Proofs.Replacement
import ScriptOrder.Proofs.DocstringText
import ScriptOrder.Proofs.Openers
import ScriptOrder.Proofs.ExactRemarks
import ScriptOrder.Proofs.SettledOutcome
import ScriptOrder.Proofs.AllowList
import ScriptOrder.Proofs.SingleRuns
import ScriptOrder.Proofs.FunctionNames
import ScriptOrder.Proofs.SoundStates
import ScriptOrder.Proofs.Grammar
import ScriptOrder.Proofs.KeptTexts
import ScriptOrder.Proofs.QuotePieces
import ScriptOrder.Proofs.BreakStyles
import ScriptOrder.Proofs.FinalBreaks
import ScriptOrder.Proofs.Agreement
import ScriptOrder.Proofs.Listings
import ScriptOrder.Proofs.WrittenRules
