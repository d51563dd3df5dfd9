import Graphing.Contour.PlaneTerm
import Graphing.Contour.Text
import Graphing.Evaluation.Text
import Graphing.Number.Elementary
import Graphing.Plot.Session
import Graphing.Relation.Value
import Graphing.Proofs.Contour.Watertight
import Graphing.Proofs.Plot.Failures
import Graphing.Proofs.Surface.Transparency
import Graphing.Proofs.Plot.Leaks
import Graphing.Proofs.Plot.Replot
import Graphing.Proofs.Evaluation.TextOutcome
import Graphing.Proofs.Evaluation.Finite
import Graphing.Proofs.Relation.Segments
import Graphing.Proofs.Plot.Curves
import Graphing.Proofs.Plot.PointValues
import Graphing.Proofs.Relation.Difference
import Graphing.Proofs.Contour.Reuse
import Graphing.Proofs.Contour.SignChange
import Graphing.Proofs.Contour.SinglePass
import Graphing.Proofs.Number.Signs
import Graphing.Proofs.Plot.KeptSegments
import Graphing.Proofs.Interval.Written
import Graphing.Proofs.Relation.CutOff
import Graphing.Proofs.Plot.Allocation
import Graphing.Proofs.Plot.Fitting
import Graphing.Proofs.Plot.InPlace
import Graphing.Proofs.Evaluation.Compiling
import Graphing.Proofs.Plot.Formulas
import Graphing.Proofs.Contour.Orderly
import Graphing.Proofs.Contour.Links
import Graphing.Proofs.Surface.Reached
import Graphing.Proofs.Relation.Calls
import Graphing.Proofs.Contour.CrossingCells
import Graphing.Proofs.Contour.Mirror
import Graphing.Proofs.Interval.Endpoints
import Graphing.Proofs.Plot.Excluded
import Graphing.Proofs.Plot.Marks
import Graphing.Proofs.Plot.CurveLength
import Graphing.Proofs.Surface.NewBounds
import Graphing.Proofs.Relation.Joined
import Graphing.Proofs.Interval.Emptiness
import Graphing.Proofs.Interval.RoundTrip
import Graphing.Proofs.Evaluation.Divisors
import Graphing.Proofs.Contour.FlatPath
import Graphing.Proofs.Relation.Readable
import Graphing.Proofs.Contour.Pointwise
import Graphing.Proofs.Evaluation.Keys
import Graphing.Proofs.Evaluation.Remembering
