import MessageExchange.Debug.Views
import MessageExchange.Dump.Provision
import MessageExchange.Exchange.Date
import MessageExchange.Modeline.Dependency
import MessageExchange.Text.Quotes
import MessageExchange.Proofs.History
import MessageExchange.Proofs.Registry.Flat
import MessageExchange.Proofs.Registry.History
import MessageExchange.Proofs.Headers.History
import MessageExchange.Proofs.Modeline.Grammar
import MessageExchange.Proofs.Modeline.Dispatch
import MessageExchange.Proofs.Modeline.Dependencies
import MessageExchange.Proofs.Modeline.Notifications
import MessageExchange.Proofs.Dump.Provision
import MessageExchange.Proofs.Dump.Sections
import MessageExchange.Proofs.Decimal.Places
import MessageExchange.Proofs.Time.Calendar
import MessageExchange.Proofs.Time.Rfc3339
import MessageExchange.Proofs.Time.RoundTrip
import MessageExchange.Proofs.Options.Strings
import MessageExchange.Proofs.Options.Tokens
import MessageExchange.Proofs.Options.Objects
import MessageExchange.Proofs.Options.Grammar
import MessageExchange.Proofs.Options.Decoding
import MessageExchange.Proofs.Dump.Shown
import MessageExchange.Proofs.Exchange.Updates
import MessageExchange.Proofs.Dump.Updates
import MessageExchange.Proofs.Exchange.Date
import MessageExchange.Proofs.Text.Trimming
import MessageExchange.Proofs.Decimal.Numerals
import MessageExchange.Proofs.Options.Placeholders
import MessageExchange.Proofs.Binary64.Denotation
import MessageExchange.Proofs.Conversion.Long
import MessageExchange.Proofs.Time.Stamps
import MessageExchange.Proofs.Time.Milliseconds
import MessageExchange.Proofs.Exchange.Created
import MessageExchange.Proofs.Time.Grammar
import MessageExchange.Proofs.Exchange.File
import MessageExchange.Proofs.Failure.StackTrace
import MessageExchange.Proofs.Failure.Wrapping
import MessageExchange.Proofs.Dump.Clipping
import MessageExchange.Proofs.Text.Quotes
import MessageExchange.Proofs.Text.Escapes
import MessageExchange.Proofs.Text.Encoding
import MessageExchange.Proofs.Comparison.Order
import MessageExchange.Proofs.Decimal.Ends
import MessageExchange.Proofs.Comparison.Integers
import MessageExchange.Proofs.Modeline.Source
import MessageExchange.Proofs.Environment.Lookup
import MessageExchange.Proofs.Conversion.Bytes
import MessageExchange.Proofs.Conversion.Detour
import MessageExchange.Proofs.Options.Bytes
import MessageExchange.Proofs.Options.File
import MessageExchange.Proofs.CaseVariants
import MessageExchange.Proofs.Exchange.Lookup
import MessageExchange.Proofs.Binary64.Equality
import MessageExchange.Proofs.Headers.Equality
import MessageExchange.Proofs.Time.Chronology
