import QuoteDesk.Book.Walk
import QuoteDesk.Secp256k1
import QuoteDesk.Token
import QuoteDesk.Json.Record
import QuoteDesk.Table
import QuoteDesk.Listing
import QuoteDesk.Directory
import QuoteDesk.Order.Reply
import QuoteDesk.Order.Digest
import QuoteDesk.Cache.Books
import QuoteDesk.Maker
import QuoteDesk.Metrics
import QuoteDesk.Feed.Runner
import QuoteDesk.Feed.Recorder
import QuoteDesk.Desk.State
import QuoteDesk.Pricing
import QuoteDesk.Order.Prepare
import QuoteDesk.Desk.Feeds
import QuoteDesk.Toml.Reader
import QuoteDesk.Toml.Writer
import QuoteDesk.Desk.Basic
import QuoteDesk.Main
import QuoteDesk.Proofs.Feed.Run
import QuoteDesk.Proofs.Feed.Frame
import QuoteDesk.Proofs.Feed.Turn
import QuoteDesk.Proofs.Feed.Stop
import QuoteDesk.Proofs.Feed.Restart
import QuoteDesk.Proofs.Feed.Update
import QuoteDesk.Proofs.Feed.Work
import QuoteDesk.Proofs.Feed.Wait
import QuoteDesk.Proofs.Text.Blank
import QuoteDesk.Proofs.Cache.Keys
import QuoteDesk.Proofs.Cache.DenySet
import QuoteDesk.Proofs.Order.Prepare
import QuoteDesk.Proofs.Order.Effects
import QuoteDesk.Proofs.Desk.Session
import QuoteDesk.Proofs.Desk.Deny
import QuoteDesk.Proofs.Desk.Restart
import QuoteDesk.Proofs.Order.Binding
import QuoteDesk.Proofs.Order.TypedData
import QuoteDesk.Proofs.Order.Fields
import QuoteDesk.Proofs.Order.Numeral
import QuoteDesk.Proofs.Order.Rendering
import QuoteDesk.Proofs.Decimal.Text
import QuoteDesk.Proofs.Decimal.Value
import QuoteDesk.Proofs.Json.Text
import QuoteDesk.Proofs.Book.Text
import QuoteDesk.Proofs.Book.Walk
import QuoteDesk.Proofs.Cache.Books
import QuoteDesk.Proofs.Text.Digits
import QuoteDesk.Proofs.Cache.Latest
import QuoteDesk.Proofs.Listing.Accepted
import QuoteDesk.Proofs.Listing.Valid
import QuoteDesk.Proofs.Feed.Prompt
import QuoteDesk.Proofs.Feed.Exclusive
import QuoteDesk.Proofs.Desk.Aside
import QuoteDesk.Proofs.Desk.Received
import QuoteDesk.Proofs.Desk.Cached
import QuoteDesk.Proofs.Desk.Quoted
import QuoteDesk.Proofs.Desk.Delivery
import QuoteDesk.Proofs.Listing.Names
import QuoteDesk.Proofs.Listing.Index
import QuoteDesk.Proofs.Desk.Installed
import QuoteDesk.Proofs.Listing.Keyed
import QuoteDesk.Proofs.Desk.Handled
import QuoteDesk.Proofs.Desk.Directories
import QuoteDesk.Proofs.Desk.Answered
import QuoteDesk.Proofs.Desk.Attribution
import QuoteDesk.Proofs.Desk.Prepared
import QuoteDesk.Proofs.Cache.Timed
import QuoteDesk.Proofs.Cache.Shared
import QuoteDesk.Proofs.Pricing.Direction
import QuoteDesk.Proofs.Pricing.Pools
import QuoteDesk.Proofs.Listing.Addresses
import QuoteDesk.Proofs.Desk.Known
import QuoteDesk.Proofs.Feed.Balance
import QuoteDesk.Proofs.Desk.Counted
import QuoteDesk.Proofs.Desk.Replica
import QuoteDesk.Proofs.Book.Recovery
import QuoteDesk.Proofs.Decimal.Exact
import QuoteDesk.Proofs.Decimal.Units
import QuoteDesk.Proofs.Decimal.Conversion
import QuoteDesk.Proofs.Order.Slippage
import QuoteDesk.Proofs.Decimal.Order
import QuoteDesk.Proofs.Book.Depth
import QuoteDesk.Proofs.Book.Truncation
import QuoteDesk.Proofs.Book.Cost
import QuoteDesk.Proofs.Book.Growth
import QuoteDesk.Proofs.Book.Integral
import QuoteDesk.Proofs.Decimal.Range
import QuoteDesk.Proofs.Book.Average
import QuoteDesk.Proofs.Book.Inverse
import QuoteDesk.Proofs.Pricing.Ranking
