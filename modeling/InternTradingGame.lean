import InternTradingGame.Library.Greedy
import InternTradingGame.Library.Runs
import InternTradingGame.OrderBook.Book
import InternTradingGame.OrderBook.Shape
import InternTradingGame.OrderBook.Matching
import InternTradingGame.OrderBook.Loop
import InternTradingGame.OrderBook.Quantities
import InternTradingGame.OrderBook.Insertion
import InternTradingGame.OrderBook.Cancellation
import InternTradingGame.OrderBook.Invariant
import InternTradingGame.OrderBook.Priority
import InternTradingGame.Exchange.Market
import InternTradingGame.Exchange.MatchingEngine
import InternTradingGame.Exchange.Venue
import InternTradingGame.Exchange.Engines
import InternTradingGame.Exchange.VenueShape
import InternTradingGame.Exchange.VenueRuns
import InternTradingGame.Exchange.Accounting
import InternTradingGame.Exchange.BatchSound
import InternTradingGame.Exchange.VenueSound
import InternTradingGame.Exchange.OrderObjects
import InternTradingGame.Exchange.Cancelling
import InternTradingGame.Exchange.DayClose
import InternTradingGame.Exchange.DailyCycle
import InternTradingGame.Exchange.Fills
import InternTradingGame.Positions.PositionService
import InternTradingGame.Positions.Settlement
import InternTradingGame.Positions.ZeroSum
import InternTradingGame.Services.OrderValidator
import InternTradingGame.Services.OrderValidation
import InternTradingGame.Pipeline.Threads
import InternTradingGame.Response.Coordinator
import InternTradingGame.Response.Entries
import InternTradingGame.Response.Steps
import InternTradingGame.Response.Bookkeeping
import InternTradingGame.Response.Waiting
import InternTradingGame.Response.Answers
import InternTradingGame.Response.Agreement
import InternTradingGame.Library.Lockstep
import InternTradingGame.OrderBook.Alike
import InternTradingGame.Exchange.Locality
import InternTradingGame.Exchange.Projection
import InternTradingGame.Exchange.VenueProjection
import InternTradingGame.Exchange.Forgetting
import InternTradingGame.Exchange.Renaming
import InternTradingGame.Exchange.Identity
import InternTradingGame.Exchange.Interference
import InternTradingGame.OrderBook.Queues
import InternTradingGame.OrderBook.Untouched
import InternTradingGame.Exchange.AuctionPricing
import InternTradingGame.Exchange.Pairing
import InternTradingGame.OrderBook.Taking
import InternTradingGame.Exchange.BatchFairness
import InternTradingGame.Positions.TwoPaths
import InternTradingGame.Library.Arguments
import InternTradingGame.Messaging.Messages
import InternTradingGame.Messaging.Producers
import InternTradingGame.Messaging.Acknowledgements
import InternTradingGame.Messaging.Manager
import InternTradingGame.Messaging.Routing
import InternTradingGame.Messaging.Reports
import InternTradingGame.Messaging.Connections
import InternTradingGame.Messaging.Endpoint
import InternTradingGame.Exchange.AuctionOptimum
import InternTradingGame.Exchange.TradeLog
import InternTradingGame.Exchange.TradeThrough
import InternTradingGame.Exchange.BatchInstruments
import InternTradingGame.Exchange.Stages
import InternTradingGame.Exchange.BatchFills
import InternTradingGame.Exchange.MarketOrders
import InternTradingGame.Exchange.BatchStages
import InternTradingGame.Exchange.BatchTruth
import InternTradingGame.Exchange.BatchResults
import InternTradingGame.Exchange.MarketLiquidity
import InternTradingGame.Exchange.AuctionMarketOrders
import InternTradingGame.Services.LimitChecks
import InternTradingGame.Library.Windows
import InternTradingGame.Pipeline.OrderRate
import InternTradingGame.Exchange.MarketMoves
import InternTradingGame.Exchange.TradeHistory
import InternTradingGame.Exchange.SeparateOrders
import InternTradingGame.Library.Plans
import InternTradingGame.OrderBook.Desk
import InternTradingGame.Exchange.BatchPlan
import InternTradingGame.Exchange.Atomicity
import InternTradingGame.Exchange.WholeObjects
import InternTradingGame.Exchange.ExactCancels
import InternTradingGame.Exchange.ContinuousResults
import InternTradingGame.Pipeline.Flow
import InternTradingGame.Pipeline.Fifo
import InternTradingGame.Pipeline.Settling
import InternTradingGame.Pipeline.PositionLimits
import InternTradingGame.Api.Submission
import InternTradingGame.Api.Refusals
import InternTradingGame.Api.Calls
import InternTradingGame.Api.FailedSubmission
import InternTradingGame.Api.Soundness
import InternTradingGame.Api.Delivery
import InternTradingGame.Library.Ladder
import InternTradingGame.OrderBook.Depth
import InternTradingGame.Phase.Manager
import InternTradingGame.Phase.TradingHours
import InternTradingGame.Phase.Polling
import InternTradingGame.Game.Registry
import InternTradingGame.Game.Server
import InternTradingGame.Positions.Billing
import InternTradingGame.Messaging.Streams
import InternTradingGame.Game.Gateway
import InternTradingGame.Services.Requirements
import InternTradingGame.Api.Gatekeeping
