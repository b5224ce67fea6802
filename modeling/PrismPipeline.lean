import PrismPipeline.Queue.SpscRefinement
import PrismPipeline.Machine.Loop
import PrismPipeline.Backtest.Causality
import PrismPipeline.Backtest.MaxDrawdown
import PrismPipeline.Live.Strategy
import PrismPipeline.Live.StrategySignals
import PrismPipeline.Live.Engine
import PrismPipeline.Series.Segments
import PrismPipeline.Series.WeightedMean
import PrismPipeline.Live.BarPartition
import PrismPipeline.Live.BarOrder
import PrismPipeline.Live.Delivery
import PrismPipeline.Live.TradeManager
import PrismPipeline.Live.TradeLedger
import PrismPipeline.Live.Pipeline
import PrismPipeline.Live.TradeOutcome
import PrismPipeline.Backtest.Moves
import PrismPipeline.Backtest.Setup
import PrismPipeline.Series.Marks
import PrismPipeline.Backtest.Attribution
import PrismPipeline.Backtest.EntryDiscipline
import PrismPipeline.Backtest.ReentryWrap
import PrismPipeline.Backtest.RoundTrips
import PrismPipeline.Backtest.AuditStory
import PrismPipeline.Backtest.BoundedOutcome
import PrismPipeline.Backtest.Reconcile
import PrismPipeline.Live.Bookkeeping
import PrismPipeline.Live.EnginePool
import PrismPipeline.Live.IndexSafety
import PrismPipeline.Live.Untrimmed
import PrismPipeline.Text.Find
import PrismPipeline.Text.FlatObject
import PrismPipeline.Feed.BinanceClient
import PrismPipeline.Feed.TradeMessage
import PrismPipeline.Feed.CutOff
import PrismPipeline.Live.FirstPassage
import PrismPipeline.Live.RetestDecision
import PrismPipeline.Backtest.Fills
import PrismPipeline.Backtest.BreakoutEvents
import PrismPipeline.Backtest.RetestOrder
import PrismPipeline.Backtest.TimeExit
import PrismPipeline.Feed.Accounting
import PrismPipeline.Live.ScaleFree
import PrismPipeline.Backtest.ScaleFree
import PrismPipeline.Backtest.MarketData
import PrismPipeline.Feed.ExchangeTime
import PrismPipeline.Live.OrderBook
import PrismPipeline.Backtest.LineEndings
import PrismPipeline.Backtest.ScoreBounds
import PrismPipeline.Backtest.OutputLogs
import PrismPipeline.Backtest.AuditJson
import PrismPipeline.Series.Gaps
import PrismPipeline.Live.RetestWindow
import PrismPipeline.Machine.Progress
import PrismPipeline.Queue.Channel
import PrismPipeline.Program.LiveProgram
import PrismPipeline.Program.LiveRefinement
import PrismPipeline.Program.Liveness
import PrismPipeline.Program.Shutdown
import PrismPipeline.Program.StatusLines
import PrismPipeline.Series.Rates
import PrismPipeline.Machine.Fairness
import PrismPipeline.Program.Benchmark
import PrismPipeline.Program.BenchmarkRun
import PrismPipeline.Program.BenchmarkEnds
import PrismPipeline.Program.Percentile
import PrismPipeline.Series.OrderStatistic
import PrismPipeline.Backtest.NumberValues
import PrismPipeline.Series.GainLoss
import PrismPipeline.Text.Report
import PrismPipeline.Backtest.Reports
import PrismPipeline.Backtest.Summary
import PrismPipeline.Backtest.SummaryBounds
import PrismPipeline.Live.OutputFiles
import PrismPipeline.Live.SignalRate
import PrismPipeline.Series.Attempts
import PrismPipeline.Program.KafkaProducer
import PrismPipeline.Program.KafkaRun
import PrismPipeline.Machine.Protocol
import PrismPipeline.Program.Connection
import PrismPipeline.Program.Reconnect
import PrismPipeline.Backtest.SwingBars
