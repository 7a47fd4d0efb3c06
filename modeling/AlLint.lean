import AlLint.Main
import AlLint.Formula.Given
import AlLint.Proofs.Flow.Exact
import AlLint.Proofs.Flow.Exit
import AlLint.Proofs.Analysis.Caseless
import AlLint.Proofs.Analysis.Commits
import AlLint.Proofs.Analysis.Visits
import AlLint.Proofs.Reading.Relayout
import AlLint.Proofs.Reading.Rendered
import AlLint.Proofs.Reading.Confined
import AlLint.Proofs.Report.Least
import AlLint.Proofs.Analysis.Verdict
import AlLint.Proofs.Reading.Blocks
import AlLint.Proofs.Flow.Meet
import AlLint.Proofs.Rule.Index
import AlLint.Proofs.Settings.Valid
import AlLint.Proofs.Rule.Loading
import AlLint.Proofs.Reading.Grouping
import AlLint.Proofs.Source.Lines
import AlLint.Proofs.Rule.Filling
import AlLint.Proofs.Rule.Documented
import AlLint.Proofs.Rule.Visible
import AlLint.Proofs.Report.Decoded
import AlLint.Proofs.Analysis.Sifted
