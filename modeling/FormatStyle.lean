import FormatStyle.Main
import FormatStyle.Proofs.Batches
import FormatStyle.Proofs.Checks
import FormatStyle.Proofs.Collapse
import FormatStyle.Proofs.Confinement
import FormatStyle.Proofs.CrossField
import FormatStyle.Proofs.Decoding
import FormatStyle.Proofs.Delivered
import FormatStyle.Proofs.Differences
import FormatStyle.Proofs.Failures
import FormatStyle.Proofs.Forms
import FormatStyle.Proofs.Implied
import FormatStyle.Proofs.Jobs
import FormatStyle.Proofs.KeyOrder
import FormatStyle.Proofs.KnownKeys
import FormatStyle.Proofs.Manifests
import FormatStyle.Proofs.Migrated
import FormatStyle.Proofs.OlderSpellings
import FormatStyle.Proofs.Repeats
import FormatStyle.Proofs.Reports
import FormatStyle.Proofs.RoundTrip
import FormatStyle.Proofs.SameKind
import FormatStyle.Proofs.Sessions
import FormatStyle.Proofs.Stacking
import FormatStyle.Proofs.Twice
import FormatStyle.Proofs.Untouched
import FormatStyle.Proofs.UpAndBack
import FormatStyle.Proofs.Upgrade
import FormatStyle.Proofs.Within
