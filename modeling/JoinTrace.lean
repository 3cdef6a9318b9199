import JoinTrace.ConfigFile
import JoinTrace.Interchange.Metric
import JoinTrace.Interchange.Report
import JoinTrace.Interchange.Trace
import JoinTrace.Json.Plain
import JoinTrace.Proofs.ReplayGrammar
import JoinTrace.Proofs.ReplayAcceptance
import JoinTrace.Proofs.Exact
import JoinTrace.Proofs.Passes
import JoinTrace.Proofs.SortedMapLaws
import JoinTrace.Proofs.TimelineReplay
import JoinTrace.Proofs.CatalogNames
import JoinTrace.Proofs.CatalogOrder
import JoinTrace.Proofs.JoinCatalogNames
import JoinTrace.Proofs.ReportOrder
import JoinTrace.Proofs.CatalogAnswers
import JoinTrace.Proofs.CatalogValues
import JoinTrace.Proofs.CycleRefusal
import JoinTrace.Proofs.ReportErrors
import JoinTrace.Proofs.AliasedMetrics
import JoinTrace.Proofs.RepeatedHeap
import JoinTrace.Proofs.ExpectedAbsence
import JoinTrace.Proofs.ReplayContinuation
import JoinTrace.Proofs.ReplayPrefix
import JoinTrace.Proofs.TrailingPolicy
import JoinTrace.Proofs.JoinIntervals
import JoinTrace.Proofs.NumberOrder
import JoinTrace.Proofs.Foremost
import JoinTrace.Proofs.StageSpans
import JoinTrace.Proofs.PhaseBoundaries
import JoinTrace.Proofs.StageAssignment
import JoinTrace.Proofs.JoinTotals
import JoinTrace.Proofs.StageListing
import JoinTrace.Proofs.StageAccount
import JoinTrace.Proofs.ClockShift
import JoinTrace.Proofs.InterchangeForms
import JoinTrace.Proofs.ReplayScan
import JoinTrace.Proofs.ReplayCulprit
import JoinTrace.Proofs.TimelineEdges
import JoinTrace.Proofs.TimelineHeaps
import JoinTrace.Proofs.Greatest
import JoinTrace.Proofs.LongestJoin
import JoinTrace.Proofs.ForeignRestart
import JoinTrace.Proofs.CursorCalls
import JoinTrace.Proofs.ReplayCalls
import JoinTrace.Proofs.StatisticsLevels
import JoinTrace.Proofs.StatisticsNesting
import JoinTrace.Proofs.SortOrder
import JoinTrace.Proofs.AlikeEnds
import JoinTrace.Proofs.Regrouping
import JoinTrace.Proofs.PhaseInsertion
import JoinTrace.Proofs.CatalogFamilies
import JoinTrace.Proofs.FilterAlgebra
import JoinTrace.Proofs.NumberRounding
import JoinTrace.Proofs.CountShare
import JoinTrace.Proofs.OrderStatistics
import JoinTrace.Proofs.Rescaling
import JoinTrace.Proofs.NumberLimits
import JoinTrace.Proofs.ConsistentClocks
import JoinTrace.Proofs.BoundlessSpans
