import StackLang.Log
import StackLang.Main
import StackLang.Proofs.Agreement
import StackLang.Proofs.DepthLimit
import StackLang.Proofs.ErrorOrder
import StackLang.Proofs.Limits
import StackLang.Proofs.PrintedText
import StackLang.Proofs.ReportLocation
import StackLang.Proofs.Sessions
import StackLang.Proofs.StackNeed
import StackLang.Proofs.Tiling
import StackLang.Proofs.ZeroDefaults
import StackLang.Proofs.Spacing
import StackLang.Proofs.LineTable
import StackLang.Proofs.LabelResolution
import StackLang.Proofs.Emission
import StackLang.Proofs.TreeDrawing
import StackLang.Proofs.FaultSites
import StackLang.Proofs.Listing
import StackLang.Proofs.ParserSessions
import StackLang.Proofs.StackEffect
