import FramedJson.Binary64.Literal
import FramedJson.CacheRace
import FramedJson.Decoder
import FramedJson.EncodeRace
import FramedJson.Model.Conversion
import FramedJson.Model.Forms
import FramedJson.Proofs.Json.Strings
import FramedJson.Proofs.Json.Integers
import FramedJson.Proofs.Encoder
import FramedJson.Proofs.Envelope
import FramedJson.Proofs.Json.ReadBack
import FramedJson.Proofs.Registry.Catalog
import FramedJson.Proofs.Registry.Contents
import FramedJson.Proofs.RoundTrip
import FramedJson.Proofs.Session
import FramedJson.Proofs.Exchange
import FramedJson.Proofs.EncodeRace
import FramedJson.Proofs.Json.Depth
import FramedJson.Proofs.Acceptance
import FramedJson.Proofs.Json.Canonical
import FramedJson.Proofs.Registry.Growth
import FramedJson.Proofs.Registry.Normalized
import FramedJson.Proofs.Shared
import FramedJson.Proofs.Json.Extension
import FramedJson.Proofs.Registry.Identity
import FramedJson.Proofs.Resolutions
import FramedJson.Json.Unordered
import FramedJson.Proofs.Json.Unordered
import FramedJson.Proofs.Registry.Equivalent
import FramedJson.Proofs.Json.Sorted
import FramedJson.Proofs.JsonSchema.SortedFault
import FramedJson.Proofs.JsonSchema.SortedKeywords
import FramedJson.Proofs.JsonSchema.SortedJudgement
import FramedJson.Proofs.JsonSchema.Normalized
import FramedJson.Proofs.Registry.Answers
import FramedJson.Proofs.Registry.Oldest
import FramedJson.Proofs.CallEffects
import FramedJson.Ledger
import FramedJson.Proofs.Ledger
import FramedJson.Proofs.Options
import FramedJson.Proofs.Contexts
import FramedJson.Proofs.CacheRace
import FramedJson.Json.Grammar
import FramedJson.Model.Texts
import FramedJson.Proofs.Json.Grammar
import FramedJson.Proofs.Json.Printed
import FramedJson.Proofs.Model.Records
import FramedJson.Proofs.Model.Forms
import FramedJson.Proofs.Registry.Checked
