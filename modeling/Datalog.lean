import Datalog.Issue
import Datalog.Main
import Datalog.Proofs.Algebra.Answering
import Datalog.Proofs.Algebra.JoinLaws
import Datalog.Proofs.Algebra.Joining
import Datalog.Proofs.Algebra.Matching
import Datalog.Proofs.Algebra.Positions
import Datalog.Proofs.Algebra.Projecting
import Datalog.Proofs.Algebra.Valuation
import Datalog.Proofs.Command.Running
import Datalog.Proofs.Evaluation.BodyOrder
import Datalog.Proofs.Evaluation.Conservation
import Datalog.Proofs.Evaluation.FiniteUniverse
import Datalog.Proofs.Evaluation.Firing
import Datalog.Proofs.Evaluation.GroundBody
import Datalog.Proofs.Evaluation.HeadTerms
import Datalog.Proofs.Evaluation.Independence
import Datalog.Proofs.Evaluation.Issues
import Datalog.Proofs.Evaluation.LeastModel
import Datalog.Proofs.Evaluation.Saturation
import Datalog.Proofs.Evaluation.Semantics
import Datalog.Proofs.Evaluation.Stopping
import Datalog.Proofs.Evaluation.Termination
import Datalog.Proofs.Evaluation.Tracing
import Datalog.Proofs.Evaluation.VariableNames
import Datalog.Proofs.Evaluation.Warnings
import Datalog.Proofs.Graph.Decomposition
import Datalog.Proofs.Graph.FinishNumbers
import Datalog.Proofs.Graph.Growth
import Datalog.Proofs.Graph.Reversal
import Datalog.Proofs.Graph.RuleGraph
import Datalog.Proofs.Graph.SameShape
import Datalog.Proofs.Settings.Loading
import Datalog.Proofs.Source.Printing
import Datalog.Proofs.Source.Recognition
import Datalog.Proofs.Source.TermKinds
import Datalog.Proofs.Source.TraceText
