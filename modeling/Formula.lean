import Formula.Session
import Formula.Main
import Formula.Registry
import Formula.Proofs.Console.Dependence
import Formula.Proofs.Expr.Variables
import Formula.Proofs.Operator.Extremes
import Formula.Proofs.Registry.Latest
import Formula.Proofs.Reading.Causes
import Formula.Proofs.Reading.Level
import Formula.Proofs.Reading.Redundant
import Formula.Proofs.Reading.Rendered
import Formula.Proofs.Reading.Signs
import Formula.Proofs.Reading.Replacement
import Formula.Proofs.Reading.Tokens
import Formula.Proofs.Reading.Written
import Formula.Proofs.Session.Chain
import Formula.Proofs.Session.History
import Formula.Proofs.Expr.PostOrder
import Formula.Proofs.Reading.Conservative
import Formula.Proofs.Session.Operations
import Formula.Proofs.Expr.Origins
import Formula.Proofs.Reading.Depth
import Formula.Proofs.Reading.Partition
import Formula.Proofs.Reading.Called
import Formula.Proofs.Decimal.Literals
import Formula.Proofs.Expr.Payloads
