import Strikedge.Machine.Run
import Strikedge.Machine.OrderedMap
import Strikedge.Machine.Custody
import Strikedge.Machine.Holders
import Strikedge.Machine.Tally
import Strikedge.Reservations.Fencing
import Strikedge.Reservations.Exclusion
import Strikedge.Reservations.AllOrNone
import Strikedge.Coordinator.Duplicates
import Strikedge.Coordinator.Refusals
import Strikedge.Coordinator.UnderlyingLifetime
import Strikedge.Coordinator.Heartbeat
import Strikedge.Orders.HedgeFirst
import Strikedge.Orders.Barrier
import Strikedge.Orders.Exposure
import Strikedge.Orders.ReservationTotals
import Strikedge.Orders.BrokerTruth
import Strikedge.Orders.SeedInstall
import Strikedge.ExecutionGateway.EntryQuarantine
import Strikedge.ExecutionGateway.LeggingExit
import Strikedge.ExecutionGateway.ResidualAccounting
import Strikedge.ExecutionGateway.WatermarkPersistence
import Strikedge.ExecutionGateway.ProjectionStore
import Strikedge.Positions.Conservation
import Strikedge.Orders.OverfillTripwire
import Strikedge.StreamHealth.Readiness
import Strikedge.OrderStream.Reconciliation
import Strikedge.OrderStream.Delivery
import Strikedge.OrderStream.WorkingOrders
import Strikedge.OrderStream.Ownership
import Strikedge.BrokerAdapter.RestFeedback
import Strikedge.BrokerAdapter.Projection
import Strikedge.BrokerAdapter.DhanCorrelation
import Strikedge.Subscriptions.LeaseCounts
import Strikedge.ActiveBroker.Generations
import Strikedge.ActiveBroker.Exposure
import Strikedge.BrokerPacing.BudgetKept
import Strikedge.TradingSession.SessionLimits
import Strikedge.EconomicAdmission.SendBoundary
import Strikedge.ExecutionGateway.UnwindConservation
import Strikedge.DhanHttp.RequestTiming
import Strikedge.OrderPricing.BoundedLimit
import Strikedge.EconomicAdmission.StageFunding
import Strikedge.EconomicAdmission.PlanFingerprint
import Strikedge.PnlArchive.CountedOnce
import Strikedge.Orders.SchedulingSlots
import Strikedge.Outbox.Order
import Strikedge.Outbox.Snapshots
import Strikedge.BrokerTokens.Schedule
import Strikedge.PaperLegs.SequentialRelease
import Strikedge.PaperLegs.LiquidityLedger
import Strikedge.PnlDay.Certified
import Strikedge.BrokerPacing.TransportPacer
import Strikedge.ExecutionGateway.EntryRecovery
import Strikedge.Positions.ValueConservation
import Strikedge.DhanFeed.Framing
import Strikedge.ExecutionGateway.ChargeConvergence
import Strikedge.DhanFeed.FeedFold
import Strikedge.Reservations.PgRefinement
import Strikedge.BrokerTokens.Readiness
import Strikedge.EntryScanner.Exclusivity
import Strikedge.Backpressure.QueueDiscipline
import Strikedge.DhanInstruments.CsvLine
import Strikedge.BoxMath.EdgeArithmetic
import Strikedge.PaperLegs.ScheduleLaws
import Strikedge.DhanInstruments.UnderlyingRecovery
import Strikedge.DhanInstruments.TokenReversal
import Strikedge.Quotes.PaperDesk
import Strikedge.Access.RateLimit
