import UnitCalc.Store.File
import UnitCalc.Document.Settings
import UnitCalc.Unit.Prefix
import UnitCalc.Proofs.Decimal.Nearest
import UnitCalc.Proofs.Decimal.ReadBack
import UnitCalc.Proofs.Formula.Evaluation
import UnitCalc.Proofs.Formula.Budget
import UnitCalc.Proofs.Formula.Limits
import UnitCalc.Proofs.Formula.FirstError
import UnitCalc.Proofs.Formula.Layout
import UnitCalc.Proofs.Formula.Policies
import UnitCalc.Proofs.Formula.Linear
import UnitCalc.Proofs.Formula.Parentheses
import UnitCalc.Proofs.Formula.Cursor
import UnitCalc.Proofs.Formula.Bindings
import UnitCalc.Proofs.Formula.Extremes
import UnitCalc.Proofs.Formula.Rounding
import UnitCalc.Proofs.Formula.Domains
import UnitCalc.Proofs.Formula.Walks
import UnitCalc.Proofs.Formula.Nesting
import UnitCalc.Proofs.Formula.Unwritable
import UnitCalc.Proofs.Unit.Conversion
import UnitCalc.Proofs.Unit.Convertibility
import UnitCalc.Proofs.Unit.Exact
import UnitCalc.Proofs.Unit.Preset
import UnitCalc.Proofs.Unit.NewUnit
import UnitCalc.Proofs.Document.Library
import UnitCalc.Proofs.Library.Loading
import UnitCalc.Proofs.Library.Validity
import UnitCalc.Proofs.Store.Runs
import UnitCalc.Proofs.Store.Durability
import UnitCalc.Proofs.Store.Refinement
import UnitCalc.Proofs.Store.Seeding
import UnitCalc.Proofs.Store.Log
import UnitCalc.Proofs.Library.Runs
import UnitCalc.Proofs.Library.Permanence
import UnitCalc.Proofs.Library.Identity
import UnitCalc.Proofs.Library.Building
import UnitCalc.Proofs.Library.OrderedMap
import UnitCalc.Proofs.Library.Variants
