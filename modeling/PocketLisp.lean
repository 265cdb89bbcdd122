import PocketLisp.Main
import PocketLisp.Proofs.Arithmetic.Division
import PocketLisp.Proofs.Evaluation.Propagation
import PocketLisp.Proofs.Layout.Colours
import PocketLisp.Proofs.Layout.Lines
import PocketLisp.Proofs.Reading.Traces
import PocketLisp.Proofs.Reading.Unclosed
import PocketLisp.Proofs.Session.Demonstration
import PocketLisp.Proofs.Session.History
import PocketLisp.Proofs.Session.Journal
import PocketLisp.Proofs.Session.Naming
import PocketLisp.Proofs.Arithmetic.Exactness
import PocketLisp.Proofs.Reading.Surroundings
import PocketLisp.Proofs.Reading.Exclusion
import PocketLisp.Proofs.Reading.Reordering
import PocketLisp.Proofs.Reading.Places
import PocketLisp.Proofs.Reading.Resumption
import PocketLisp.Text.CodePoint
import PocketLisp.Proofs.Reading.StandIns
import PocketLisp.Proofs.Text.Written
import PocketLisp.Proofs.Reading.Termination
