import Polycalc.Main
import Polycalc.Proofs.Factors
import Polycalc.Proofs.Injectivity
import Polycalc.Proofs.Memo.Aftermath
import Polycalc.Proofs.Memo.Lines
import Polycalc.Proofs.Memo.Masking
import Polycalc.Proofs.Rereading
import Polycalc.Wire.Record
import Polycalc.Proofs.Canonical
import Polycalc.Proofs.Json.Compact
import Polycalc.Proofs.Json.Persistence
import Polycalc.Proofs.CommandLine
import Polycalc.Proofs.Memo.Observed
import Polycalc.Proofs.Memo.WriteOnce
import Polycalc.Proofs.Exact
import Polycalc.Proofs.FactorOrder
import Polycalc.Proofs.SumText
import Polycalc.Proofs.Memo.Rebuilding
import Polycalc.Proofs.ShapeText
import Polycalc.Proofs.Simplified
import Polycalc.Proofs.Message
import Polycalc.Proofs.Batch
import Polycalc.Proofs.Argument
