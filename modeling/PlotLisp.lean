import PlotLisp.Main
import PlotLisp.Proofs.Evaluation.SelfEvaluation
import PlotLisp.Proofs.Evaluation.Idempotence
import PlotLisp.Proofs.Evaluation.OutOfBand
import PlotLisp.Proofs.Evaluation.Unmentioned
import PlotLisp.Proofs.Kernel.Isolation
import PlotLisp.Proofs.Plot.Curve
import PlotLisp.Proofs.Plot.Frame
import PlotLisp.Proofs.Prompt.Lockstep
import PlotLisp.Proofs.Reader.Lines
import PlotLisp.Proofs.Reader.Completion
import PlotLisp.Proofs.Reader.Preorder
import PlotLisp.Proofs.Reader.Rereading
import PlotLisp.Proofs.Session.Application
import PlotLisp.Proofs.Session.Fusion
import PlotLisp.Proofs.Session.Keywords
import PlotLisp.Proofs.Session.Renaming
import PlotLisp.Proofs.Session.Shadowing
import PlotLisp.Proofs.Token.Placement
import PlotLisp.Proofs.Plot.Stems
import PlotLisp.Proofs.Number.Operations
import PlotLisp.Proofs.Builtin.Progression
import PlotLisp.Proofs.Number.Notation
import PlotLisp.Proofs.Session.Carrying
import PlotLisp.Proofs.Plot.Scale
import PlotLisp.Proofs.Plot.Extent
import PlotLisp.Proofs.Builtin.Arity
import PlotLisp.Proofs.Reader.Depth
import PlotLisp.Proofs.Expression.Comparison
