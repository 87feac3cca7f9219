import WildcardNet.Label
import WildcardNet.Text.Numeral
import WildcardNet.Text.Blank
import WildcardNet.Text.Quoted
import WildcardNet.Weight.Text
import WildcardNet.Network.Stage
import WildcardNet.Network.Trim
import WildcardNet.Network.Matcher
import WildcardNet.Listing.Reader
import WildcardNet.Listing.Writer
import WildcardNet.Pass
import WildcardNet.Report
import WildcardNet.Program
import WildcardNet.Main
import WildcardNet.Reading
import WildcardNet.Proofs.Edits
import WildcardNet.Proofs.Marking
import WildcardNet.Proofs.Trimming
import WildcardNet.Proofs.Expansion
import WildcardNet.Proofs.Closing
import WildcardNet.Proofs.Composition
import WildcardNet.Proofs.Alternation
import WildcardNet.Proofs.Passes
import WildcardNet.Proofs.Cleanness
import WildcardNet.Proofs.ArcOrder
import WildcardNet.Proofs.Joining
import WildcardNet.Proofs.Reexpansion
import WildcardNet.Proofs.Decimals
import WildcardNet.Proofs.Descriptions
import WildcardNet.Proofs.Fields
import WildcardNet.Proofs.Listings
import WildcardNet.Proofs.RoundTrips
import WildcardNet.Proofs.Chaining
import WildcardNet.Proofs.Sessions
import WildcardNet.Proofs.Reordering
import WildcardNet.Proofs.Roles
import WildcardNet.Proofs.Mirror
import WildcardNet.Proofs.Stability
import WildcardNet.Proofs.Renaming
import WildcardNet.Proofs.UsefulPart
import WildcardNet.Proofs.Pruning
import WildcardNet.Proofs.Projection
import WildcardNet.Proofs.Blanking
import WildcardNet.Proofs.Acceptors
import WildcardNet.Proofs.Grammar
import WildcardNet.Proofs.Restoration
import WildcardNet.Proofs.Dangling
import WildcardNet.Proofs.Synchronized
import WildcardNet.Proofs.Matching
import WildcardNet.Proofs.Precedence
import WildcardNet.Proofs.Arguments
import WildcardNet.Proofs.CompactText
import WildcardNet.Proofs.Additions
import WildcardNet.Proofs.Staging
import WildcardNet.Proofs.Alphabets
import WildcardNet.Proofs.SettingsFiles
