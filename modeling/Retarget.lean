import Retarget.Cancellation
import Retarget.Files.Memory
import Retarget.Logging
import Retarget.Main
import Retarget.Proofs.Selection.Fixpoint
import Retarget.Proofs.Selection.ReferenceOrder
import Retarget.Proofs.Framework.Compare
import Retarget.Proofs.Framework.UpperBound
import Retarget.Proofs.Selection.Modern
import Retarget.Proofs.Selection.Floor
import Retarget.Proofs.Analysis.Interleaving
import Retarget.Proofs.Analysis.Arrangement
import Retarget.Proofs.Analysis.Index
import Retarget.Proofs.Symbol.Name
import Retarget.Proofs.Analysis.FileOrder
import Retarget.Proofs.Fix.Splice
import Retarget.Proofs.Fix.Agreement
import Retarget.Proofs.Fix.Again
import Retarget.Proofs.Analysis.Confirmation
import Retarget.Proofs.Project.Cycle
import Retarget.Proofs.Package.Search
import Retarget.Proofs.Fix.LetterCase
import Retarget.Proofs.Package.Order
import Retarget.Proofs.Package.Reading
import Retarget.Proofs.Package.Precedence
import Retarget.Proofs.Symbol.Merge
import Retarget.Proofs.Framework.Name
import Retarget.Proofs.Analysis.Contract
import Retarget.Proofs.Package.Key
import Retarget.Proofs.Package.Closure
import Retarget.Proofs.Symbol.Kind
import Retarget.Proofs.Rule.SymbolMatch
import Retarget.Proofs.Analysis.Ambiguity
import Retarget.Proofs.Symbol.Import
import Retarget.Proofs.Source.VisualBasic.Bytes
import Retarget.Proofs.Source.VisualBasic.Scope
import Retarget.Proofs.Package.Newer
import Retarget.Proofs.Package.Floor
import Retarget.Proofs.Source.VisualBasic.TypeArguments
import Retarget.Proofs.Fix.ImportLine
import Retarget.Proofs.Package.Bounds
import Retarget.Proofs.Package.Room
import Retarget.Proofs.Package.Availability
import Retarget.Proofs.Framework.Digits
import Retarget.Proofs.Framework.Standard
import Retarget.Proofs.Path.Canonical
import Retarget.Proofs.Component.Identification
import Retarget.Proofs.Selection.Usable
import Retarget.Proofs.Rule.TrailingComma
