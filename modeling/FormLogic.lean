import FormLogic.Demo
import FormLogic.Main
import FormLogic.Proofs.Catalogue.Evaluating
import FormLogic.Proofs.Catalogue.Failure
import FormLogic.Proofs.Catalogue.Families
import FormLogic.Proofs.Catalogue.Loading
import FormLogic.Proofs.Catalogue.Numbering
import FormLogic.Proofs.Catalogue.Statistics
import FormLogic.Proofs.Comparison.Coherence
import FormLogic.Proofs.Comparison.Interchange
import FormLogic.Proofs.Comparison.TextNumber
import FormLogic.Proofs.Comparison.TextOrder
import FormLogic.Proofs.Comparison.WholeNumbers
import FormLogic.Proofs.Demo.BlankForm
import FormLogic.Proofs.Evaluation.Dependence
import FormLogic.Proofs.Evaluation.Diagnostics
import FormLogic.Proofs.Evaluation.Monotonicity
import FormLogic.Proofs.Evaluation.Reordering
import FormLogic.Proofs.Evaluation.Repetition
import FormLogic.Proofs.Evaluation.Resolution
import FormLogic.Proofs.Evaluation.Tracing
import FormLogic.Proofs.Field.Arrangement
import FormLogic.Proofs.Field.RoundTrip
import FormLogic.Proofs.Number.Order
import FormLogic.Proofs.Path.Boundaries
import FormLogic.Proofs.Path.Characters
import FormLogic.Proofs.Path.Dotted
import FormLogic.Proofs.Path.Layers
import FormLogic.Proofs.Path.Parts
import FormLogic.Proofs.Settings.Precedence
import FormLogic.Settings.LogFilter
