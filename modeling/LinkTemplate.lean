import LinkTemplate.Percent.Encoding
import LinkTemplate.Percent.Triplet
import LinkTemplate.Binding.Builder
import LinkTemplate.Engine
import LinkTemplate.Proofs.Traverse
import LinkTemplate.Proofs.Atoms
import LinkTemplate.Proofs.Body
import LinkTemplate.Proofs.Cutting
import LinkTemplate.Proofs.Encoded
import LinkTemplate.Proofs.UriText
import LinkTemplate.Proofs.Written
import LinkTemplate.Proofs.RoundTrip
import LinkTemplate.Proofs.Escaped
import LinkTemplate.Proofs.Faithful
import LinkTemplate.Proofs.Delimiters
import LinkTemplate.Proofs.Concatenation
import LinkTemplate.Proofs.LookAhead
import LinkTemplate.Proofs.Calls
import LinkTemplate.Proofs.Recency
import LinkTemplate.Proofs.FixedPoints
import LinkTemplate.Proofs.Overlong
import LinkTemplate.Proofs.Coercion
import LinkTemplate.Proofs.Rescue
import LinkTemplate.Proofs.Footprint
import LinkTemplate.Proofs.Converted
import LinkTemplate.Proofs.Building
import LinkTemplate.Proofs.Seams
import LinkTemplate.Proofs.Parts
import LinkTemplate.Proofs.Limits
import LinkTemplate.Proofs.Overrides
import LinkTemplate.Proofs.Degraded
import LinkTemplate.Proofs.FirstPairs
import LinkTemplate.Proofs.Coerced
import LinkTemplate.Proofs.ReadNumbers
import LinkTemplate.Proofs.Configured
import LinkTemplate.Proofs.Levels
import LinkTemplate.Proofs.BrokenNames
import LinkTemplate.Proofs.SetUps
import LinkTemplate.Proofs.OneLine
import LinkTemplate.Proofs.JsonText
import LinkTemplate.Proofs.Times
import LinkTemplate.Proofs.JsonLines
